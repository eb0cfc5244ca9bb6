import Mathlib.Data.List.Chain
import Mathlib.Logic.Relation
import RouteDocs.Proofs.Coupling
import RouteDocs.Proofs.Shorthand

/-!
# `RouteDocs.Proofs.ReaderCalls`: the readers of tag text, which call one another

Five readers call one another in a circle. A parameter text holds a description, a description is
split into prose and a property block, a block is read line by line, and a shorthand line is a
parameter text again. `Readers` has one function for each of them. `Readers.step` is one round of
the circle: every reader does its own work and leaves its calls to given readers. `Calls` lists
these calls.

A call is not always on a shorter text than its caller, since a description can be the whole of the
text that is split, and a line the whole of its block. What ends the circle is the line feed. A
header needs one behind it, a literal example needs one in front, and a line of a block has none.
`Call.height` puts this into a number, which is at most 8 and falls with every call. A block has
the same height wherever it stands, so none is read while another one is.

`readers_recursion_ends` puts together what follows from this. No text makes the readers call one
another without an end, or for more than eight calls below the first. What a line stands for has no
property block, and no example where its type takes a literal, so its schema leaves nothing out.
And the recursion has one solution only, the readers in use, although these write a line out without
any reader of blocks (`expandLine`).
-/

set_option autoImplicit false

namespace RouteDocs.Tag

open Text

/-! ### One round of the circle -/

/-- The readers of tag text that call one another. -/
@[ext]
structure Readers where
  /-- Reads a parameter text. -/
  parameter : Text → Except Error ParameterTag
  /-- Takes the description of a parameter of a type apart. -/
  description : (type text : Text) → Except Error Description
  /-- Splits a text into prose and the schema of its property block. -/
  split : Text → Except Error (Text × Option Properties)
  /-- Reads a property block. -/
  block : Text → Except Error Properties
  /-- Writes a line of a block out as YAML. -/
  line : Text → Except Error Text

/-- Writes a shorthand line out, with its parameter read by `readParameter`. -/
def expandLineWith (readParameter : Text → Except Error ParameterTag) (line : Text) :
    Except Error Text :=
  let body := trim line
  if isShorthand body then do
    let p ← readParameter body
    let leaf ← (Json.write .compact (leafSchema p)).mapError .fault
    .ok (line.takeWhile isBlank ++ Json.stringText p.name ++ ": " ++ leaf)
  else .ok line

/-- Every reader at its own work, with its calls answered by the readers `r`. -/
def Readers.step (tag : Text) (r : Readers) : Readers where
  parameter text := do
    let head ← splitParameter tag text
    let type := normalizeType head.type
    let d ← r.description type head.description
    .ok ⟨head.name, type, head.required, d.prose, d.sample, d.properties⟩
  description type text := do
    match literalBrackets? type with
    | some (opening, closing) =>
      let (text, sample) ← match cutLiteral? opening closing text with
        | none => .ok (text, none)
        | some (before, literal) => (castExample tag type literal).map fun e => (before, some e)
      let (prose, properties) ← r.split text
      .ok ⟨trim prose, sample, properties⟩
    | none =>
      let (prose, properties) ← r.split text
      let (prose, raw) := takeInline prose
      let sample ← match raw with
        | none => .ok none
        | some raw => (castExample tag type raw).map some
      .ok ⟨trim prose, sample, properties⟩
  split text := splitBlockWith r.block text
  block block := do
    let ls ← (breakLines (dedent block)).mapM r.line
    let part ← (Yaml.read (unlines ls)).mapError (blockError tag)
    match part.value with
    | .scalar .null => .ok []
    | .map entries => normalizeEntries tag maxSchemaDepth entries
    | _ => .error (.malformedTag tag .blockNotMap)
  line := expandLineWith r.parameter

/-- The readers in use. The one of a line is put in terms of `parseParameter`. `parseBlock` writes
its lines out by `expandLine`, and `step_readers` says that this comes to the same. -/
def readers (tag : Text) : Readers where
  parameter := parseParameter tag
  description := parseDescription tag
  split := splitBlock tag
  block := parseBlock tag
  line := expandLineWith (parseParameter tag)

/-! ### Calls -/

/-- A call of one of the readers. -/
inductive Call where
  /-- A parameter text is read. -/
  | parameter (text : Text)
  /-- The description of a parameter of a type is taken apart. -/
  | description (type text : Text)
  /-- A text is split at its property block. -/
  | split (text : Text)
  /-- A property block is read. -/
  | block (text : Text)
  /-- A line of a block is written out. -/
  | line (text : Text)

/-- What is left of a description when its literal example is cut off. -/
def withoutLiteral (type text : Text) : Text :=
  match literalBrackets? type with
  | some (opening, closing) => ((cutLiteral? opening closing text).map Prod.fst).getD text
  | none => text

/-- The first call makes the second. Of a block every line counts, also those below a line that
fails, which are not read any more. -/
inductive Calls (tag : Text) : Call → Call → Prop where
  /-- The description of a parameter text is taken apart. -/
  | description {text : Text} {head : ParameterHead} (h : splitParameter tag text = .ok head) :
    Calls tag (.parameter text) (.description (normalizeType head.type) head.description)
  /-- A description is split. -/
  | split (type text : Text) :
    Calls tag (.description type text) (.split (withoutLiteral type text))
  /-- The block below a header is read. -/
  | block {text prose block : Text} (h : cutBlock? true text = some (prose, block)) :
    Calls tag (.split text) (.block block)
  /-- A block is read line by line. -/
  | line {block line : Text} (h : line ∈ breakLines (dedent block)) :
    Calls tag (.block block) (.line line)
  /-- A shorthand line is a parameter text. -/
  | parameter {line : Text} (h : isShorthand (trim line) = true) :
    Calls tag (.line line) (.parameter (trim line))

/-- Two families of readers give the same answer to a call. -/
def Readers.Agree (r s : Readers) : Call → Prop
  | .parameter text => r.parameter text = s.parameter text
  | .description type text => r.description type text = s.description type text
  | .split text => r.split text = s.split text
  | .block text => r.block text = s.block text
  | .line text => r.line text = s.line text

/-- Two families of readers are the same if they give the same answer to every call. -/
theorem Readers.eq_of_agree {r s : Readers} (h : ∀ c, r.Agree s c) : r = s := by
  ext1
  · exact funext fun text => h (.parameter text)
  · exact funext fun type => funext fun text => h (.description type text)
  · exact funext fun text => h (.split text)
  · exact funext fun text => h (.block text)
  · exact funext fun text => h (.line text)

variable {tag : Text}

/-! ### The end of the calls -/

/-- A line has no line feed in it. -/
theorem lineFeed_not_mem_of_mem_breakLines {s line : Text} (h : line ∈ breakLines s) :
    .char '\n' ∉ line := fun hmem =>
  absurd (isLineBreak_of_mem_breakLines s line h _ hmem) (by decide)

/-- Nor has a line whose blanks are off. -/
theorem lineFeed_not_mem_trim {s line : Text} (h : line ∈ breakLines s) : .char '\n' ∉ trim line :=
  fun hmem => lineFeed_not_mem_of_mem_breakLines h ((trim_isPart line).subset hmem)

/-- What is left of a description is a part of it. -/
theorem withoutLiteral_isPart (type text : Text) : withoutLiteral type text <:+: text := by
  rw [withoutLiteral]
  split
  · rename_i opening closing _
    cases hcut : cutLiteral? opening closing text with
    | none => exact List.infix_rfl
    | some cut => exact (before_of_cutLiteral? hcut).isInfix
  · exact List.infix_rfl

/-- The height of a call on `text` whose height is `n` on a single line. -/
def heightOn (text : Text) (n : Nat) : Nat := if .char '\n' ∈ text then n + 5 else n

/-- A line feed adds five to the height at most. -/
theorem heightOn_le (text : Text) (n : Nat) : heightOn text n ≤ n + 5 := by
  rw [heightOn]
  split <;> omega

/-- A call on a part of a text is lower, if it is on one line. -/
theorem heightOn_lt {part text : Text} (h : part ⊆ text) {m n : Nat} (hmn : m < n) :
    heightOn part m < heightOn text n := by
  rw [heightOn, heightOn]
  split
  · rename_i hpart
    rw [if_pos (h hpart)]
    omega
  · split <;> omega

/-- How many calls may lie below a call, each one made by the one above it. The calls below a block
are on single lines, and the way to a block takes a line feed. -/
def Call.height : Call → Nat
  | .split text => heightOn text 0
  | .description _ text => heightOn text 1
  | .parameter text => heightOn text 2
  | .line text => heightOn text 3
  | .block _ => 4

/-- No call is higher than eight. -/
theorem Call.height_le (c : Call) : c.height ≤ 8 := by
  cases c with
  | split text => exact (heightOn_le text 0).trans (by decide)
  | description type text => exact (heightOn_le text 1).trans (by decide)
  | parameter text => exact (heightOn_le text 2).trans (by decide)
  | line text => exact heightOn_le text 3
  | block text => exact (by decide : 4 ≤ 8)

/-- Every call lowers the height. -/
theorem Calls.height_lt {c d : Call} (h : Calls tag c d) : d.height < c.height := by
  cases h with
  | description h => exact heightOn_lt (description_isPart h).subset (Nat.lt_succ_self 1)
  | split type text =>
      exact heightOn_lt (withoutLiteral_isPart type text).subset (Nat.lt_succ_self 0)
  | block h =>
      rw [Call.height, Call.height, heightOn, if_pos (lineFeed_mem_of_cutBlock? h)]
      decide
  | line h =>
      rw [Call.height, Call.height, heightOn, if_neg (lineFeed_not_mem_of_mem_breakLines h)]
      decide
  | parameter _ => exact heightOn_lt (trim_isPart _).subset (Nat.lt_succ_self 2)

/-- Every call leads to lower ones only, so they come to an end. -/
theorem wellFounded_calls (tag : Text) : WellFounded fun callee caller => Calls tag caller callee :=
  Subrelation.wf (fun h => h.height_lt) (measure Call.height).wf

/-- What a call leads to by way of others is lower too. -/
theorem height_lt_of_transGen {c d : Call} (h : Relation.TransGen (Calls tag) c d) :
    d.height < c.height := by
  induction h with
  | single h => exact h.height_lt
  | tail _ h ih => exact h.height_lt.trans ih

/-- A chain of calls is no longer than its first call is high. -/
theorem length_le_height {c : Call} {calls : List Call} (h : (c :: calls).IsChain (Calls tag)) :
    calls.length ≤ c.height := by
  induction calls generalizing c with
  | nil => exact Nat.zero_le _
  | cons d calls ih =>
      rw [List.isChain_cons_cons] at h
      exact Nat.succ_le_of_lt ((ih h.2).trans_lt h.1.height_lt)

/-- Once around: a parameter text with a block whose line is a parameter text again. -/
example : List.IsChain (Calls "bodyParam") [
    .parameter "user object\nproperties:\n  name string",
    .description "object" "properties:\n  name string",
    .split "properties:\n  name string",
    .block "  name string",
    .line "name string",
    .parameter "name string",
    .description "string" "",
    .split ""] := by
  have hread : splitParameter "bodyParam" "user object\nproperties:\n  name string"
      = .ok ⟨"user", "object", false, "properties:\n  name string"⟩ := by decide +kernel
  have hcut : cutBlock? true "properties:\n  name string"
      = some (Text.ofString "", Text.ofString "  name string") := by decide +kernel
  have hline : splitParameter "bodyParam" "name string" = .ok ⟨"name", "string", false, ""⟩ := by
    decide +kernel
  exact .cons_cons (.description hread) <| .cons_cons (.split _ _) <|
    .cons_cons (.block hcut) <| .cons_cons (.line (by decide +kernel)) <|
    .cons_cons (.parameter (by decide +kernel)) <|
    .cons_cons (.description hline) <| .cons_cons (.split _ _) <| .singleton _

/-! ### The only solution -/

/-- A round asks the given readers for nothing but its calls. -/
theorem Readers.agree_step {r s : Readers} {c : Call} (h : ∀ d, Calls tag c d → r.Agree s d) :
    (r.step tag).Agree (s.step tag) c := by
  cases c with
  | parameter text =>
      show (r.step tag).parameter text = (s.step tag).parameter text
      rw [step, step]
      dsimp only
      cases hhead : splitParameter tag text with
      | error e => rfl
      | ok head =>
          have hdescription : r.description _ _ = s.description _ _ := h _ (.description hhead)
          rw [Yaml.ok_bind, Yaml.ok_bind, hdescription]
  | description type text =>
      show (r.step tag).description type text = (s.step tag).description type text
      have hsplit : r.split _ = s.split _ := h _ (.split type text)
      -- A literal that can be cut off is taken out, and the block is looked for in the rest.
      rw [withoutLiteral] at hsplit
      rw [step, step]
      dsimp only
      cases hbrackets : literalBrackets? type with
      | none =>
          rw [hbrackets] at hsplit
          simp only [hsplit]
      | some brackets =>
          obtain ⟨opening, closing⟩ := brackets
          rw [hbrackets] at hsplit
          dsimp only at hsplit ⊢
          cases hcut : cutLiteral? opening closing text with
          | none =>
              rw [hcut, Option.map_none, Option.getD_none] at hsplit
              simp only [Yaml.ok_bind, hsplit]
          | some cut =>
              rw [hcut, Option.map_some, Option.getD_some] at hsplit
              dsimp only
              cases castExample tag type cut.2 with
              | error e => rfl
              | ok sample => simp only [Except.map, Yaml.ok_bind, hsplit]
  | split text =>
      show splitBlockWith r.block text = splitBlockWith s.block text
      rw [splitBlockWith, splitBlockWith]
      cases hcut : cutBlock? true text with
      | none => rfl
      | some cut =>
          have hblock : r.block _ = s.block _ := h _ (.block hcut)
          simp only [hblock]
  | block text =>
      show (r.step tag).block text = (s.step tag).block text
      rw [step, step]
      dsimp only
      rw [mapM_congr_left fun line hline => h (.line line) (.line hline)]
  | line text =>
      show expandLineWith r.parameter text = expandLineWith s.parameter text
      rw [expandLineWith, expandLineWith]
      split
      · rename_i hshort
        have hparameter : r.parameter _ = s.parameter _ := h _ (.parameter hshort)
        rw [hparameter]
      · rfl

/-- On the lines of a text, the reader of a line needs no reader of blocks. -/
theorem expandLine_eq_line {s line : Text} (h : line ∈ breakLines s) (tag : Text) :
    expandLine tag line = (readers tag).line line := by
  show expandLine tag line = expandLineWith (parseParameter tag) line
  rw [expandLine, expandLineWith, parseLine_eq_parseParameter tag (lineFeed_not_mem_trim h)]

/-- The readers in use solve the recursion. -/
theorem step_readers (tag : Text) : (readers tag).step tag = readers tag := by
  refine Readers.eq_of_agree fun c => ?_
  cases c with
  | block text =>
      -- Only this reader is not written in terms of the others: its lines go to `expandLine`.
      show ((readers tag).step tag).block text = parseBlock tag text
      rw [parseBlock, mapM_congr_left fun line hline => expandLine_eq_line hline tag]
      rfl
  | parameter text => rfl
  | description type text => rfl
  | split text => rfl
  | line text => rfl

/-- The readers are the only family that one round does not change: two such families agree on
every call, by induction on its height. -/
theorem Readers.step_eq_self_iff (r : Readers) : r.step tag = r ↔ r = readers tag := by
  constructor
  · intro hr
    refine Readers.eq_of_agree fun c => ?_
    induction c using (wellFounded_calls tag).induction with
    | _ c ih =>
        rw [← hr, ← step_readers]
        exact agree_step ih
  · rintro rfl
    exact step_readers tag

/-! ### What a line stands for -/

/-- A parameter without a property block, and without an example where its type takes a literal. -/
structure ParameterTag.IsFlat (p : ParameterTag) : Prop where
  /-- There is no nested schema. -/
  properties : p.properties = none
  /-- There is no literal. -/
  sample : p.type = CanonicalType.object.name ∨ p.type = CanonicalType.array.name → p.sample = none

/-- An object and a list have brackets for a literal. -/
theorem literalBrackets?_isSome {type : Text}
    (h : type = CanonicalType.object.name ∨ type = CanonicalType.array.name) :
    (literalBrackets? type).isSome = true := by
  obtain rfl | rfl := h <;> decide

/-- The description of a line has no block, and no example where its type takes a literal, since
both stand behind a line feed. -/
theorem parseDescription_line {type text : Text} {d : Description} (hfeed : .char '\n' ∉ text)
    (h : parseDescription tag type text = .ok d) :
    d.properties = none ∧ ((literalBrackets? type).isSome = true → d.sample = none) := by
  simp only [parseDescription, parseDescriptionWith, splitBlockWith_eq _ hfeed,
    cutLiteral?_eq_none _ _ hfeed, Yaml.ok_bind] at h
  cases hbrackets : literalBrackets? type with
  | some brackets =>
      rw [hbrackets] at h
      cases h
      exact ⟨rfl, fun _ => rfl⟩
  | none =>
      rw [hbrackets] at h
      refine ⟨?_, fun hsome => absurd hsome Bool.false_ne_true⟩
      cases hraw : (takeInline text).2 with
      | none =>
          simp only [hraw] at h
          cases h
          rfl
      | some raw =>
          simp only [hraw] at h
          obtain ⟨sample, -, h⟩ := exists_of_bind_eq_ok h
          cases h
          rfl

/-- So the parameter of a line is flat. -/
theorem isFlat_of_parseParameter {text : Text} {p : ParameterTag} (hfeed : .char '\n' ∉ text)
    (h : parseParameter tag text = .ok p) : p.IsFlat := by
  rw [parseParameter, parseParameterWith] at h
  obtain ⟨head, hhead, h⟩ := exists_of_bind_eq_ok h
  obtain ⟨d, hd, h⟩ := exists_of_bind_eq_ok h
  cases h
  have hdescription : .char '\n' ∉ head.description :=
    fun hmem => hfeed ((description_isPart hhead).subset hmem)
  obtain ⟨hproperties, hsample⟩ := parseDescription_line hdescription hd
  exact ⟨hproperties, fun htype => hsample (literalBrackets?_isSome htype)⟩

/-! ### The recursion -/

/-- The recursion of the readers comes to an end, whatever the text.

- A round asks for nothing but its calls, and no run of calls is endless. A run has no more than
  eight calls below its first, and no two of its calls read a block.
- What a line of a block stands for has no nested schema, and no example where its type takes a
  literal. It is written out without a reader of blocks as it would be with one.
- The readers in use solve the recursion, and they are the only ones. -/
theorem readers_recursion_ends (tag : Text) :
    (∀ (r s : Readers) (c : Call), (∀ d, Calls tag c d → r.Agree s d) →
        (r.step tag).Agree (s.step tag) c) ∧
      (WellFounded fun callee caller => Calls tag caller callee) ∧
      (∀ c calls, (c :: calls).IsChain (Calls tag) → calls.length ≤ 8) ∧
      (∀ outer inner, ¬ Relation.TransGen (Calls tag) (.block outer) (.block inner)) ∧
      (∀ block, ∀ line ∈ breakLines (dedent block),
        expandLine tag line = (readers tag).line line ∧
          ∀ p, parseParameter tag (trim line) = .ok p → p.IsFlat) ∧
      ∀ r : Readers, r.step tag = r ↔ r = readers tag := by
  refine ⟨fun r s c => Readers.agree_step, wellFounded_calls tag, fun c calls hcalls => ?_,
    fun outer inner h => ?_, fun block line hline => ⟨?_, fun p hp => ?_⟩,
    Readers.step_eq_self_iff⟩
  · exact (length_le_height hcalls).trans c.height_le
  · -- All blocks have the same height.
    exact absurd (height_lt_of_transGen h) (Nat.lt_irrefl _)
  · exact expandLine_eq_line hline tag
  · exact isFlat_of_parseParameter (lineFeed_not_mem_trim hline) hp

/-- A block with a line that has the words of a header and of a literal example in it. -/
def metaBlock : Text := "  meta object properties: Example: \x7b\x7d"

/-- The line of the block is shorthand, and stands for a parameter in which all of this is prose. -/
theorem readers_recursion_ends_metaBlock :
    ∃ line ∈ breakLines (dedent metaBlock), isShorthand (trim line) = true ∧
      ∃ p, parseParameter "bodyParam" (trim line) = .ok p ∧
        p.description = "properties: Example: \x7b\x7d" ∧ p.IsFlat := by
  have hline : Text.ofString "meta object properties: Example: \x7b\x7d"
      ∈ breakLines (dedent metaBlock) := by decide +kernel
  have hparse : parseParameter "bodyParam" (trim "meta object properties: Example: \x7b\x7d")
      = .ok ⟨"meta", "object", false, "properties: Example: \x7b\x7d", none, none⟩ := by
    decide +kernel
  obtain ⟨-, -, -, -, hlines, -⟩ := readers_recursion_ends "bodyParam"
  exact ⟨_, hline, by decide +kernel, _, hparse, rfl, (hlines _ _ hline).2 _ hparse⟩

end RouteDocs.Tag
