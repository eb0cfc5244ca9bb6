import RouteDocs.Tag.Response
import RouteDocs.Proofs.JsonReading
import RouteDocs.Proofs.ParameterText

/-!
# `RouteDocs.Proofs.ResponseText`: response tags read back

A response tag is written as a status, the JSON text of an example, and prose, with single spaces
between them; a property block may follow under its header. `WrittenResponse` has these parts and
what is asked of each, and `WrittenResponse.text` puts them together around the text of the
example.

The reader finds the boundaries again. The status ends at its space. The example ends where the
JSON reader stops (`Json.readPart_of_write`), whatever stands in its texts. The block is found at
the header that was written and at no earlier place, since a header inside of the prose has a line
below it that is not indented (`headedBlock?_eq_none`). `parseResponse_text` puts this together.
-/

set_option autoImplicit false

namespace RouteDocs.Tag

open Text Number

/-! ### Parts and text -/

/-- A text whose first line with more than spaces and tabs is indented, and starts with neither a
blank nor a hyphen behind that. -/
inductive OpensBlock : Text → Prop where
  /-- The line is the first. -/
  | first {indent : Text} (hindent : ∀ c ∈ indent, isIndent c = true) (hne : indent ≠ [])
      {c : CodePoint} (hblank : isBlank c = false) (hhyphen : c ≠ .char '-') (rest : Text) :
      OpensBlock (indent ++ c :: rest)
  /-- The line is below one of spaces and tabs. -/
  | later {line : Text} (hline : ∀ c ∈ line, isIndent c = true) {rest : Text}
      (hrest : OpensBlock rest) : OpensBlock (line ++ .char '\n' :: rest)

/-- A response, in the parts that are written. -/
structure WrittenResponse where
  /-- The digits of the status, if it is written. -/
  status : Option Text
  /-- The example. -/
  sample : Value
  /-- The prose, if there is any. It may also be written and empty. -/
  description : Option Text
  /-- The lines below the header of a property block, if there is one. -/
  block : Option Text
  areDigits_status : ∀ s ∈ status, AreDigits s ∧ s.length = 3
  isJsonTree_sample : Json.IsJsonTree sample
  /-- The example is a list or a mapping. -/
  isContainer_sample : (∃ items, sample = .list items) ∨ ∃ entries, sample = .map entries
  isPhrase_description : ∀ d ∈ description, IsPhrase d
  opensBlock_block : ∀ b ∈ block, OpensBlock b

namespace WrittenResponse

variable (r : WrittenResponse)

/-- The text behind the example, up to the header. -/
def proseText : Text := (r.description.map fun d => .char ' ' :: d).getD []

/-- The text behind the prose. -/
def blockText : Text := (r.block.map fun b => "\n" ++ (blockMarker ++ ("\n" ++ b))).getD []

/-- The text of a response whose example has the JSON text `literal`. -/
def text (literal : Text) : Text :=
  (r.status.map fun s => s ++ [.char ' ']).getD [] ++ (literal ++ (r.proseText ++ r.blockText))

/-- The status code. -/
def code : Int := (r.status.map fun s => (ofDecimals (digitValues s) : Int)).getD 200

/-- What is described. -/
def shownDescription : Text :=
  if (r.description.getD []).isEmpty then "success" else r.description.getD []

/-- What the property block holds. -/
def content (tag : Text) : Except Error (Option Properties) :=
  match r.block with
  | none => .ok none
  | some b => (parseBlock tag b).map some

end WrittenResponse

/-! ### The block -/

/-- A line in front of a text is the first of its lines. -/
theorem lines_append {line : Text} (h : .char '\n' ∉ line) (rest : Text) :
    lines (line ++ .char '\n' :: rest) = line :: lines rest := by
  apply splitWhere_append _ (by decide)
  intro c hc
  rw [decide_eq_false_iff_not]
  intro heq
  exact h (heq ▸ hc)

/-- The characters in front of the first line feed are in the first line. -/
theorem exists_lines_eq_cons {start : Text} (h : .char '\n' ∉ start) (rest : Text) :
    ∃ line others, lines (start ++ rest) = (start ++ line) :: others := by
  induction start with
  | nil =>
      obtain ⟨line, others, hlines⟩ := List.exists_cons_of_ne_nil (splitWhere_ne_nil _ rest)
      exact ⟨line, others, hlines⟩
  | cons c start ih =>
      rw [List.mem_cons, not_or] at h
      obtain ⟨line, others, hlines⟩ := ih h.2
      refine ⟨line, others, ?_⟩
      rw [lines] at hlines ⊢
      rw [List.cons_append, splitWhere, if_neg (by simpa using Ne.symm h.1), hlines]
      rfl

/-- Indentation has no line feed in it. -/
theorem lineFeed_not_mem_indent {s : Text} (h : ∀ c ∈ s, isIndent c = true) : .char '\n' ∉ s := by
  intro hmem
  exact absurd (h _ hmem) (by decide)

/-- A block is indented from its first line with more than spaces and tabs. -/
theorem OpensBlock.startsIndented_eq {b : Text} (h : OpensBlock b) : startsIndented b = true := by
  induction h with
  | @first indent hindent hne c hblank hhyphen rest =>
      -- The first line is not blank, so it is the one that decides.
      have hc : isIndent c = false := by
        rw [← Bool.not_eq_true]
        intro hc
        exact absurd (hblank.symm.trans (isBlank_of_isIndent hc)) (by decide)
      have hstart : .char '\n' ∉ indent ++ [c] := by
        rw [List.mem_append, List.mem_singleton, not_or]
        refine ⟨lineFeed_not_mem_indent hindent, ?_⟩
        intro heq
        subst heq
        exact absurd hblank (by decide)
      obtain ⟨line, others, hlines⟩ := exists_lines_eq_cons hstart rest
      rw [List.append_assoc, List.append_assoc, List.singleton_append, List.singleton_append]
        at hlines
      have hsome : ¬ (indent ++ c :: line).all isIndent = true := by
        simp [hc]
      have hmargin : (indent ++ c :: line).dropWhile isIndent = c :: line := by
        rw [List.dropWhile_append_of_pos hindent, List.dropWhile_cons_of_neg (by simp [hc])]
      have hfirst : (indent ++ c :: line).head?.any isIndent = true := by
        obtain ⟨d, ds, rfl⟩ := List.exists_cons_of_ne_nil hne
        exact hindent d List.mem_cons_self
      rw [startsIndented, hlines, List.dropWhile_cons, if_neg hsome]
      simp only [hfirst, hmargin, hblank]
      simpa using hhyphen
  | @later line hline rest _ ih =>
      have hall : line.all isIndent = true := List.all_eq_true.mpr hline
      rw [startsIndented, lines_append (lineFeed_not_mem_indent hline), List.dropWhile_cons,
        if_pos hall]
      exact ih

/-- A line that is indented, and is no list element, opens a block whatever follows it. -/
theorem opensBlock_of_line {line : Text} (hindent : line.head?.any isIndent = true)
    (hline : (match line.dropWhile isIndent with
      | [] => false
      | c :: _ => !isBlank c && c ≠ .char '-') = true) (rest : Text) :
    OpensBlock (line ++ rest) := by
  cases hword : line.dropWhile isIndent with
  | nil =>
      rw [hword] at hline
      exact nomatch hline
  | cons c cs =>
      rw [hword] at hline
      have hc : isBlank c = false ∧ c ≠ .char '-' := by simpa using hline
      have hne : line.takeWhile isIndent ≠ [] := by
        cases line with
        | nil => exact nomatch hindent
        | cons d line =>
            have hd : isIndent d = true := hindent
            simp [hd]
      have h := OpensBlock.first (fun d (hd : d ∈ line.takeWhile isIndent) => List.mem_takeWhile_imp hd)
        hne hc.1 hc.2 (cs ++ rest)
      rwa [← List.cons_append, ← hword, ← List.append_assoc, List.takeWhile_append_dropWhile] at h

/-- What is taken for a block opens one. The induction is on the length, line by line. -/
theorem opensBlock_of_startsIndented {b : Text} (h : startsIndented b = true) : OpensBlock b := by
  induction hn : b.length using Nat.strongRecOn generalizing b with
  | ind n ih =>
      subst hn
      -- A first line with text decides, whatever stands below it.
      have hsplit : ∀ (line rest : Text) (others : List Text), lines (line ++ rest) = line :: others →
          startsIndented (line ++ rest) = true → line.all isIndent = false →
          OpensBlock (line ++ rest) := by
        intro line rest others hlines h hall
        rw [startsIndented, hlines, List.dropWhile_cons, if_neg (by rw [hall]; nofun),
          Bool.and_eq_true] at h
        exact opensBlock_of_line h.1 h.2 rest
      by_cases hfeed : CodePoint.char '\n' ∈ b
      · obtain ⟨line, rest, rfl, hline⟩ := List.eq_append_cons_of_mem hfeed
        cases hall : line.all isIndent with
        | false => exact hsplit line _ _ (lines_append hline rest) h hall
        | true =>
            rw [startsIndented, lines_append hline, List.dropWhile_cons, if_pos hall] at h
            refine .later (List.all_eq_true.mp hall) (ih rest.length ?_ h rfl)
            simp only [List.length_append, List.length_cons]
            omega
      · have hlines : lines b = [b] := splitWhere_eq_singleton_of_not_mem hfeed
        cases hall : b.all isIndent with
        | false =>
            have h' := hsplit b [] [] (by rwa [List.append_nil]) (by rwa [List.append_nil]) hall
            rwa [List.append_nil] at h'
        | true =>
            rw [startsIndented, hlines, List.dropWhile_cons, if_pos hall] at h
            exact nomatch h

/-- The line of the header is not indented. -/
theorem startsIndented_header (rest : Text) :
    startsIndented (blockMarker ++ .char '\n' :: rest) = false := by
  rw [startsIndented, lines_append (by decide)]
  rfl

/-- A header in the prose heads no block, since the line below the prose is not indented. -/
theorem headedBlock?_eq_none {prose : Text} (h : .char '\n' ∉ prose) (rest : Text) :
    headedBlock? (prose ++ .char '\n' :: (blockMarker ++ .char '\n' :: rest)) = none := by
  cases hdrop : dropStart? blockMarker
      (prose ++ .char '\n' :: (blockMarker ++ .char '\n' :: rest)) with
  | none => rw [headedBlock?, hdrop]
  | some after =>
      by_cases hprefix : blockMarker <+: prose
      · obtain ⟨gap, rfl⟩ := hprefix
        rw [List.append_assoc, dropStart?_append] at hdrop
        obtain rfl := Option.some.inj hdrop
        rw [headedBlock?, List.append_assoc, dropStart?_append]
        have hgap : .char '\n' ∉ gap := fun hmem => h (List.mem_append_right _ hmem)
        cases hleft : gap.dropWhile isIndent with
        | nil =>
            -- The header ends its line, so the block would start at the next header.
            have hrest : (gap ++ .char '\n' :: (blockMarker ++ .char '\n' :: rest)).dropWhile isIndent
                = .char '\n' :: (blockMarker ++ .char '\n' :: rest) := by
              rw [List.dropWhile_append, hleft]
              rfl
            simp [hrest, startsIndented_header]
        | cons c cs =>
            -- Something else follows it on its line.
            have hc : c ≠ .char '\n' := by
              intro heq
              have hmem : c ∈ gap := List.dropWhile_subset _ (hleft ▸ List.mem_cons_self)
              exact hgap (heq ▸ hmem)
            have hrest : (gap ++ .char '\n' :: (blockMarker ++ .char '\n' :: rest)).dropWhile isIndent
                = c :: (cs ++ .char '\n' :: (blockMarker ++ .char '\n' :: rest)) := by
              rw [List.dropWhile_append, hleft]
              rfl
            simp [hrest, hc]
      · rw [dropStart?_eq_none (by decide) hprefix] at hdrop
        exact nomatch hdrop

/-- A text that starts with a headed block is cut there, with nothing in front. -/
theorem cutBlock?_of_headed {s block : Text} (h : headedBlock? s = some block) :
    cutBlock? true s = some ([], block) := by
  cases s with
  | nil => exact nomatch h
  | cons c cs => rw [cutBlock?, if_pos rfl, h]

/-- A header line with a block below it heads that block. -/
theorem OpensBlock.headedBlock?_eq {block : Text} (h : OpensBlock block) :
    headedBlock? (blockMarker ++ .char '\n' :: block) = some block := by
  rw [headedBlock?, dropStart?_append]
  show (if startsIndented block then some block else none) = _
  rw [if_pos h.startsIndented_eq]

/-- The block is cut at the header below the prose. -/
theorem cutBlock?_prose {prose block : Text} (h : .char '\n' ∉ prose) (hblock : OpensBlock block)
    (lineStart : Bool) :
    cutBlock? lineStart (prose ++ .char '\n' :: (blockMarker ++ .char '\n' :: block))
      = some (prose ++ [.char '\n'], block) := by
  -- The induction is on the prose; no place in it is that of a header.
  induction prose generalizing lineStart with
  | nil =>
      have hfeed : headedBlock? (.char '\n' :: (blockMarker ++ .char '\n' :: block)) = none := rfl
      have hindent : isIndent (.char '\n') = false := by decide
      rw [List.nil_append, cutBlock?, hfeed, ite_self, hindent]
      show (cutBlock? true (blockMarker ++ .char '\n' :: block)).map _ = _
      rw [cutBlock?_of_headed hblock.headedBlock?_eq]
      rfl
  | cons c prose ih =>
      have hhere := headedBlock?_eq_none h block
      rw [List.mem_cons, not_or] at h
      have hnext := headedBlock?_eq_none h.2 block
      rw [List.cons_append] at hhere ⊢
      rw [cutBlock?, hhere, hnext, ite_self, ite_self, ih h.2]
      rfl

/-- Prose with lines below it. Without prose there is nothing above them. -/
def atop (prose rest : Text) : Text := if prose = [] then rest else prose ++ .char '\n' :: rest

/-- What follows the lines below some prose follows all of it. -/
theorem atop_append (prose s t : Text) : atop prose (s ++ t) = atop prose s ++ t := by
  rw [atop, atop]
  split
  · rfl
  · rw [List.append_assoc, List.cons_append]

/-- Prose with lines below it has no blanks around it, if neither part has. -/
theorem trim_atop {prose rest : Text} (hprose : IsPhrase prose) (hrest : trim rest = rest)
    (hne : rest ≠ []) : trim (atop prose rest) = atop prose rest := by
  rw [atop]
  split
  · exact hrest
  · rename_i hp
    have h := trim_append hprose.trimmed hp hrest hne [.char '\n']
    rwa [List.append_assoc] at h

/-- A block is found at its header, below the prose or at the very start. -/
theorem splitBlock_atop {prose block : Text} (hprose : IsPhrase prose) (hblock : OpensBlock block)
    (tag : Text) :
    ∃ lead, trim lead = prose ∧ splitBlock tag (atop prose (blockMarker ++ .char '\n' :: block))
      = (parseBlock tag block).map fun properties => (lead, some properties) := by
  by_cases hnil : prose = []
  · refine ⟨[], by rw [hnil]; rfl, ?_⟩
    rw [splitBlock, splitBlockWith, atop, if_pos hnil, cutBlock?_of_headed hblock.headedBlock?_eq]
  · refine ⟨prose ++ [.char '\n'], ?_, ?_⟩
    · rw [← trimStart_trimEnd, trimEnd_concat, if_pos (by decide), trimStart_trimEnd,
        hprose.trimmed]
    · rw [splitBlock, splitBlockWith, atop, if_neg hnil, cutBlock?_prose hprose.one_line hblock]

/-! ### The parts in front -/

/-- Three digits and a space are read as the status. -/
theorem takeStatus_digits {s : Text} (hdigits : AreDigits s) (hlength : s.length = 3) (rest : Text) :
    takeStatus (s ++ .char ' ' :: rest) = (ofDecimals (digitValues s), .char ' ' :: rest) := by
  match s, hlength with
  | [a, b, c], _ =>
      have ha : isBlank a = false := (CodePoint.not_mark_of_isWordChar
        (CodePoint.isWordChar_of_isDigit (hdigits a List.mem_cons_self))).2.1
      have hdecimals : decimals? [a, b, c] = some (digitValues [a, b, c]) :=
        decimals?_of_areDigits hdigits
      show takeStatus (a :: b :: c :: .char ' ' :: rest) = _
      rw [takeStatus, trimStart_cons_of_not ha]
      simp only [hdecimals]
      rfl

/-- A bracket is no digit, so there is no status in front of it. -/
theorem takeStatus_bracket {c : CodePoint} (hc : c = .char '[' ∨ c = .char '\x7b') (rest : Text) :
    takeStatus (c :: rest) = (200, c :: rest) := by
  have hblank : isBlank c = false := by
    rcases hc with rfl | rfl <;> decide
  have hdecimal : decimalValue? c = none := by
    rcases hc with rfl | rfl <;> decide
  rw [takeStatus, trimStart_cons_of_not hblank]
  match rest with
  | [] | [_] => rfl
  | a :: b :: rest =>
      have hdecimals : decimals? [c, a, b] = none := by
        simp [decimals?, hdecimal]
      simp only [hdecimals]

namespace WrittenResponse

variable (r : WrittenResponse)

/-- An example is a list or a mapping, so its depth is positive. -/
theorem depth_sample_pos : 0 < r.sample.depth := by
  obtain ⟨items, h⟩ | ⟨entries, h⟩ := r.isContainer_sample
  · rw [h, Value.depth]
    exact Nat.succ_pos _
  · rw [h, Value.depth]
    exact Nat.succ_pos _

/-- The text of the example starts with a bracket. -/
theorem exists_literal_eq_cons {literal : Text} (h : Json.write .compact r.sample = .ok literal) :
    ∃ c cs, literal = c :: cs ∧ (c = .char '[' ∨ c = .char '\x7b') := by
  obtain ⟨items, hs⟩ | ⟨entries, hs⟩ := r.isContainer_sample
  · rw [hs] at h
    obtain ⟨-, parts, -, rfl⟩ := Json.valueText_list_eq_ok_iff.mp h
    exact ⟨_, _, Json.Layout.enclose_compact _ _ _ _, .inl rfl⟩
  · rw [hs] at h
    obtain ⟨-, parts, -, rfl⟩ := Json.valueText_map_eq_ok_iff.mp h
    exact ⟨_, _, Json.Layout.enclose_compact _ _ _ _, .inr rfl⟩

/-- The prose is on one line. -/
theorem lineFeed_not_mem_proseText : .char '\n' ∉ r.proseText := by
  rw [proseText]
  cases h : r.description with
  | none => simp
  | some d =>
      have hline := (r.isPhrase_description d h).one_line
      simpa using hline

/-- Without its blanks it is the description. -/
theorem trim_proseText : trim r.proseText = r.description.getD [] := by
  rw [proseText]
  cases h : r.description with
  | none => rfl
  | some d =>
      show trim (.char ' ' :: d) = d
      rw [trim, trimStart_cons_blank (by decide), ← trim, (r.isPhrase_description d h).trimmed]

/-- The prose and the block are found behind the example. -/
theorem splitResponseBlock_eq (tag : Text) :
    ∃ prose, trim prose = r.description.getD [] ∧
      splitResponseBlock tag (r.proseText ++ r.blockText) = (r.content tag).map (prose, ·) := by
  rw [blockText, content]
  cases hblock : r.block with
  | none =>
      have hfeed := r.lineFeed_not_mem_proseText
      refine ⟨r.proseText, r.trim_proseText, ?_⟩
      show splitResponseBlock tag (r.proseText ++ []) = _
      rw [List.append_nil, splitResponseBlock, splitBlock, splitBlockWith_eq _ hfeed, Yaml.ok_bind]
      simp only [dropWhile_ne_eq_nil hfeed]
      rfl
  | some b =>
      refine ⟨r.proseText ++ [.char '\n'], ?_, ?_⟩
      · rw [← trimStart_trimEnd, trimEnd_concat, if_pos (by decide), trimStart_trimEnd,
          r.trim_proseText]
      -- The header stands right below the prose, and the prose has none.
      · have hcut := cutBlock?_prose r.lineFeed_not_mem_proseText (r.opensBlock_block b hblock) true
        show splitResponseBlock tag
          (r.proseText ++ .char '\n' :: (blockMarker ++ .char '\n' :: b)) = _
        rw [splitResponseBlock, splitBlock, splitBlockWith, hcut]
        dsimp only
        cases parseBlock tag b <;> rfl

/-- The status and the example are found in front. -/
theorem takeStatus_text {literal : Text} (h : Json.write .compact r.sample = .ok literal) :
    ∃ code rest, takeStatus (r.text literal) = (code, rest) ∧ (code : Int) = r.code ∧
      trimStart rest = literal ++ (r.proseText ++ r.blockText) := by
  obtain ⟨c, cs, rfl, hc⟩ := r.exists_literal_eq_cons h
  have hblank : isBlank c = false := by
    rcases hc with rfl | rfl <;> decide
  rw [text, code]
  cases hstatus : r.status with
  | none => exact ⟨200, _, takeStatus_bracket hc _, rfl, trimStart_cons_of_not hblank _⟩
  | some s =>
      obtain ⟨hdigits, hlength⟩ := r.areDigits_status s hstatus
      refine ⟨_, .char ' ' :: (c :: cs ++ (r.proseText ++ r.blockText)), ?_, rfl, ?_⟩
      · show takeStatus ((s ++ [.char ' ']) ++ _) = _
        rw [List.append_assoc, List.singleton_append, takeStatus_digits hdigits hlength]
      · rw [trimStart_cons_blank (by decide)]
        exact trimStart_cons_of_not hblank _


/-- The example is read back from its JSON text, whatever follows. -/
theorem takeJson_text (tag : Text) {literal : Text} (h : Json.write .compact r.sample = .ok literal)
    (rest : Text) : takeJson tag (literal ++ rest) = .ok (some r.sample, rest) := by
  have hread := Json.readPart_of_write r.isJsonTree_sample r.depth_sample_pos h rest
  obtain ⟨c, cs, rfl, hc⟩ := r.exists_literal_eq_cons h
  have hbracket : (decide (c = .char '\x7b') || decide (c = .char '[')) = true := by
    rcases hc with rfl | rfl <;> decide
  rw [List.cons_append] at hread ⊢
  rw [takeJson, if_pos hbracket, hread]

end WrittenResponse

/-! ### Responses -/

/-- A response is read as its parts: the status, the example, the prose and what is in its block.
It fails where its block does. An example has a text unless it is nested too deeply. -/
theorem parseResponse_text (r : WrittenResponse) (tag : Text) :
    ((∃ literal, Json.write .compact r.sample = .ok literal) ↔ r.sample.depth ≤ Json.maxDepth) ∧
      ∀ literal, Json.write .compact r.sample = .ok literal →
        parseResponse tag (r.text literal) = (r.content tag).map fun content =>
          { status := r.code
            description := r.shownDescription
            content := content
            sample := some r.sample
            schemaRef := none } := by
  refine ⟨Json.exists_write_iff .compact r.isJsonTree_sample r.depth_sample_pos, ?_⟩
  intro literal h
  obtain ⟨code, rest, hstatus, hcode, hrest⟩ := r.takeStatus_text h
  obtain ⟨prose, hprose, hsplit⟩ := r.splitResponseBlock_eq tag
  rw [parseResponse, hstatus]
  simp only [hrest, r.takeJson_text tag h, hsplit, Yaml.ok_bind]
  cases r.content tag with
  | error e => rfl
  | ok content =>
      show Except.ok (Response.mk code _ content (some r.sample) none) = _
      rw [hprose, hcode]
      rfl

/-- A response whose example holds text that looks like prose and like a block. -/
def lookalike : WrittenResponse where
  status := some "404"
  sample := .map [(.str "properties:", .list [.str "]\x7d \"\n é😀", .int (-7), .null])]
  description := some "Not found properties:"
  block := some "\n  code: \x7b\x7d"
  areDigits_status := by
    intro s hs
    obtain rfl := Option.some.inj hs
    exact ⟨by simp only [AreDigits]; decide, by decide⟩
  isJsonTree_sample := .map (.cons (by simp) (by simp)
    (.list (.cons (.str (by simp)) (.cons (.int (by decide)) (.cons .null .nil)))) .nil)
  isContainer_sample := .inr ⟨_, rfl⟩
  isPhrase_description := by
    intro d hd
    obtain rfl := Option.some.inj hd
    exact ⟨by decide, by decide⟩
  opensBlock_block := by
    intro b hb
    obtain rfl := Option.some.inj hb
    have hindent : ∀ c ∈ ("  " : Text), isIndent c = true := by decide
    have hline : OpensBlock "  code: \x7b\x7d" :=
      .first hindent (by decide) (by decide) (by decide) "ode: \x7b\x7d"
    have hempty : ∀ c ∈ ([] : Text), isIndent c = true := by simp
    exact .later hempty hline

/-- The text of the example. -/
def lookalikeLiteral : Text :=
  "\x7b\"properties:\": [\"]\x7d \\\"\\n \\u00e9\\ud83d\\ude00\", -7, null]\x7d"

/-- It is read as it was meant. -/
theorem parseResponse_lookalike :
    parseResponse "response"
        ("404 " ++ lookalikeLiteral ++ " Not found properties:\nproperties:\n\n  code: \x7b\x7d")
      = (parseBlock "response" "\n  code: \x7b\x7d").map fun content =>
        { status := 404
          description := "Not found properties:"
          content := some content
          sample := some lookalike.sample } := by
  have hwrite : Json.write .compact lookalike.sample = .ok lookalikeLiteral := by decide +kernel
  have hread := (parseResponse_text lookalike "response").2 _ hwrite
  have hcontent : lookalike.content "response"
      = (parseBlock "response" "\n  code: \x7b\x7d").map some := rfl
  rw [hcontent] at hread
  refine Eq.trans ?_ (hread.trans ?_)
  · rfl
  · cases parseBlock "response" "\n  code: \x7b\x7d" <;> rfl

end RouteDocs.Tag
