import RouteDocs.Proofs.LiteralExample

/-!
# `RouteDocs.Proofs.BareBlock`: property blocks with and without their header

The lines of a response below its description form a property block, and the header above them
may be left out. `BlockResponse` has the parts of such a response; `BlockResponse.headed` is its
text with the header and `BlockResponse.bare` the text without.

With the header the parts always come back. Without it they do where the block stands alone
(`BlockResponse.StandsAlone`): the description is not empty, and no header stands in what follows
the status. A header inside of the block, as the properties of a field have it, is taken for that
of the whole block, and what is above it goes to the description; and if there is no description,
the first line of the block is taken for it.

`CutAs` says what a text is cut into, and `BlockResponse.Regains` that this gives the parts again.
`parseResponse_bare` proves that a response is read alike in both forms exactly then. A block that
does not stand alone comes back only if it starts with a header again, or with the word that an
empty description is shown as. `holdsHeader_iff` is the exact condition under which a block is cut
at a header at all.
-/

set_option autoImplicit false

namespace RouteDocs.Tag

open Text Number

/-! ### Headers in a text -/

/-- A header line with a block below it: the marker, spaces and tabs up to the end of the line,
and the lines of the block. -/
def HeadsBlock (s block : Text) : Prop :=
  ∃ gap, s = blockMarker ++ (gap ++ .char '\n' :: block) ∧ (∀ c ∈ gap, isIndent c = true) ∧
    OpensBlock block

/-- A header stands in a text, at the start of a line or behind a space or tab. `lineStart` tells
whether the text itself starts a line. -/
def HoldsHeaderAt (lineStart : Bool) (s : Text) : Prop :=
  ∃ before header block, s = before ++ header ∧ HeadsBlock header block ∧
    (before = [] → lineStart = true) ∧ ∀ c ∈ before.getLast?, c = .char '\n' ∨ isIndent c = true

/-- A header stands in a text. -/
def HoldsHeader (s : Text) : Prop := HoldsHeaderAt true s

/-- What is taken for a headed block is one: a header, spaces or tabs, a line feed and the block. -/
theorem headedBlock?_eq_some_iff {s block : Text} :
    headedBlock? s = some block ↔ HeadsBlock s block := by
  constructor
  · intro h
    rw [headedBlock?] at h
    split at h
    · cases h
    · rename_i rest hrest
      split at h
      · rename_i found hfound
        split at h
        · rename_i hopens
          obtain rfl := Option.some.inj h
          -- The gap is what is passed over between the header and the line feed.
          refine ⟨rest.takeWhile isIndent, ?_, fun _ => List.mem_takeWhile_imp,
            opensBlock_of_startsIndented hopens⟩
          rw [← hfound, List.takeWhile_append_dropWhile]
          exact eq_append_of_dropStart? hrest
        · cases h
      · cases h
  · rintro ⟨gap, rfl, hgap, hblock⟩
    rw [headedBlock?, dropStart?_append]
    dsimp only
    rw [List.dropWhile_append_of_pos hgap, List.dropWhile_cons_of_neg (by decide)]
    exact if_pos hblock.startsIndented_eq

/-- A headed block starts with the header. -/
theorem HeadsBlock.exists_eq {s block : Text} (h : HeadsBlock s block) :
    ∃ rest, s = blockMarker ++ rest := by
  obtain ⟨gap, rfl, -⟩ := h
  exact ⟨_, rfl⟩

/-- Where a block is cut there is a header, behind the prose and spaces and tabs. -/
theorem exists_of_cutBlock? {lineStart : Bool} {s prose block : Text}
    (h : cutBlock? lineStart s = some (prose, block)) :
    ∃ mark header, s = prose ++ mark ++ header ∧ HeadsBlock header block ∧
      (∀ c ∈ mark, isIndent c = true) ∧ (prose ++ mark = [] → lineStart = true) ∧
      ∀ c ∈ (prose ++ mark).getLast?, c = .char '\n' ∨ isIndent c = true := by
  induction s generalizing lineStart prose with
  | nil => cases h
  | cons c s ih =>
      -- A header is looked for at the start of a line, behind a space or tab, and further on.
      rw [cutBlock?] at h
      split at h
      · rename_i found hfound
        obtain ⟨rfl, rfl⟩ := Prod.mk.inj (Option.some.inj h)
        split at hfound
        · rename_i hstart
          exact ⟨[], c :: s, rfl, headedBlock?_eq_some_iff.mp hfound, by simp, fun _ => hstart,
            by simp⟩
        · cases hfound
      · split at h
        · rename_i found hfound
          obtain ⟨rfl, rfl⟩ := Prod.mk.inj (Option.some.inj h)
          split at hfound
          · rename_i hc
            exact ⟨[c], s, rfl, headedBlock?_eq_some_iff.mp hfound, by simpa using hc, by simp,
              by simpa using Or.inr hc⟩
          · cases hfound
        · obtain ⟨r, hr, heq⟩ := Option.map_eq_some_iff.mp h
          obtain ⟨rfl, rfl⟩ := Prod.mk.inj heq
          obtain ⟨mark, header, hs, hheader, hmark, hstart, hlast⟩ := ih hr
          refine ⟨mark, header, by rw [hs]; rfl, hheader, hmark, by simp, ?_⟩
          rw [List.cons_append]
          -- With nothing in front of that header, `c` ends the line above it.
          cases hbefore : r.1 ++ mark with
          | nil =>
              have hc : c = .char '\n' := by simpa using hstart hbefore
              simp [hc]
          | cons d before =>
              rw [List.getLast?_cons_cons, ← hbefore]
              exact hlast

/-- Where no block is cut there is no header. -/
theorem not_holdsHeaderAt {lineStart : Bool} {s : Text} (h : cutBlock? lineStart s = none) :
    ¬ HoldsHeaderAt lineStart s := by
  rintro ⟨before, header, block, rfl, hheader, hstart, hlast⟩
  -- The search goes from left to right, so the induction is on what is in front of the header.
  induction before generalizing lineStart with
  | nil =>
      obtain rfl := hstart rfl
      rw [List.nil_append, cutBlock?_of_headed (headedBlock?_eq_some_iff.mpr hheader)] at h
      cases h
  | cons c before ih =>
      rw [List.cons_append, cutBlock?] at h
      split at h
      · cases h
      · split at h
        · cases h
        · rename_i hnone
          refine ih (Option.map_eq_none_iff.mp h) ?_ ?_
          · -- A header right behind `c` would have been found if `c` were a space or tab.
            intro hnil
            subst hnil
            rcases hlast c rfl with hc | hc
            · rw [hc]
              rfl
            · rw [if_pos hc, List.nil_append, headedBlock?_eq_some_iff.mpr hheader] at hnone
              cases hnone
          · cases before with
            | nil => simp
            | cons d before =>
                rw [List.getLast?_cons_cons] at hlast
                exact hlast

/-- A block is cut from a text exactly where a header stands in it. -/
theorem holdsHeader_iff {s : Text} : HoldsHeader s ↔ ∃ r, cutBlock? true s = some r := by
  constructor
  · intro h
    cases hcut : cutBlock? true s with
    | none => exact absurd h (not_holdsHeaderAt hcut)
    | some r => exact ⟨r, rfl⟩
  · rintro ⟨⟨prose, block⟩, hcut⟩
    obtain ⟨mark, header, hs, hheader, -, hstart, hlast⟩ := exists_of_cutBlock? hcut
    exact ⟨prose ++ mark, header, block, hs, hheader, hstart, hlast⟩

/-! ### The block without a header -/

/-- Lines that open a block are taken for one without its header. -/
theorem OpensBlock.startsKeyMap_eq {b : Text} (h : OpensBlock b) : startsKeyMap b = true := by
  induction h with
  | @first indent hindent hne c hblank hhyphen rest =>
      -- This line has text: without its indentation it starts with `c`.
      have hstart : ∀ d ∈ indent ++ [c], isLineBreak d = false := by
        intro d hd
        rcases List.mem_append.mp hd with hd | hd
        · exact isLineBreak_of_isIndent (hindent d hd)
        · rw [List.mem_singleton.mp hd]
          exact isLineBreak_of_isBlank hblank
      obtain ⟨line, others, hlines⟩ := exists_breakLines_eq_cons hstart (by simp) rest
      have htrim : trim (indent ++ [c] ++ line) = c :: trimEnd line := by
        rw [trim, List.append_assoc,
          trimStart_append_of_blank fun d hd => isBlank_of_isIndent (hindent d hd)]
        exact trimEnd_cons_of_not hblank line ▸ congrArg trimEnd (trimStart_cons_of_not hblank line)
      rw [List.append_assoc] at hlines
      rw [startsKeyMap, ← List.singleton_append, hlines, List.map_cons, htrim]
      simpa using hhyphen
  | @later line hline rest _ ih =>
      -- A line of spaces and tabs is passed over.
      have htrim : trim line = [] := by
        have hblank := trimStart_append_of_blank (fun d hd => isBlank_of_isIndent (hline d hd)) []
        rw [List.append_nil] at hblank
        rw [trim, hblank]
        rfl
      rw [startsKeyMap, breakLines_append fun d hd => isLineBreak_of_isIndent (hline d hd),
        List.map_cons, htrim]
      exact ih

/-! ### Parts and text -/

/-- A response with a property block and no example, in the parts that are written. -/
structure BlockResponse where
  /-- The digits of the status. -/
  status : Text
  /-- The prose, which may be empty. -/
  description : Text
  /-- The lines of the block. -/
  block : Text
  areDigits_status : AreDigits status
  length_status : status.length = 3
  isPhrase_description : IsPhrase description
  /-- The prose does not start like an example. -/
  description_ne_bracket : ∀ c ∈ description.head?, c ≠ .char '\x7b' ∧ c ≠ .char '['
  opensBlock_block : OpensBlock block

/-- What a description is shown as. -/
def shownAs (description : Text) : Text :=
  if description.isEmpty then "success" else description

namespace BlockResponse

variable (r : BlockResponse)

/-- The text with the header of the block. -/
def headed : Text :=
  r.status ++ .char ' ' :: (r.description ++ .char '\n' :: (blockMarker ++ .char '\n' :: r.block))

/-- The description and the lines of the block. -/
def bareText : Text := r.description ++ .char '\n' :: r.block

/-- The text without the header. -/
def bare : Text := r.status ++ .char ' ' :: r.bareText

/-- The response that is meant, with what the block holds. -/
def response (properties : Properties) : Response :=
  { status := ofDecimals (digitValues r.status)
    description := shownAs r.description
    content := some properties }

/-- The block stands alone: there is a description above it, and no header in either. -/
def StandsAlone : Prop := r.description ≠ [] ∧ ¬ HoldsHeader r.bareText

end BlockResponse

/-- A text that starts with no bracket has no example. -/
theorem takeJson_eq {s : Text} (h : ∀ c ∈ s.head?, c ≠ .char '\x7b' ∧ c ≠ .char '[') (tag : Text) :
    takeJson tag s = .ok (none, s) := by
  cases s with
  | nil => rfl
  | cons c s =>
      obtain ⟨hbrace, hbracket⟩ := h c rfl
      rw [takeJson, if_neg (by simp [hbrace, hbracket])]

/-- Without an example nothing is taken, and the text does not start like one. -/
theorem eq_of_takeJson {tag s rest : Text} (h : takeJson tag s = .ok (none, rest)) :
    rest = s ∧ ∀ c ∈ s.head?, c ≠ .char '\x7b' ∧ c ≠ .char '[' := by
  cases s with
  | nil => exact ⟨(Prod.mk.inj (Except.ok.inj h)).2.symm, by simp⟩
  | cons c s =>
      rw [takeJson] at h
      split at h
      · split at h
        · cases (Prod.mk.inj (Except.ok.inj h)).1
        all_goals cases h
      · rename_i hbracket
        refine ⟨(Prod.mk.inj (Except.ok.inj h)).2.symm, fun d hd => ?_⟩
        obtain rfl := Option.some.inj hd
        simpa using hbracket

/-! ### Responses with a block -/

/-- What is read behind the status, if it is no example. -/
theorem parseResponse_status {status : Text} (hdigits : AreDigits status)
    (hlength : status.length = 3) {rest : Text}
    (h : ∀ c ∈ (trimStart rest).head?, c ≠ .char '\x7b' ∧ c ≠ .char '[') (tag : Text) :
    parseResponse tag (status ++ .char ' ' :: rest)
      = (splitResponseBlock tag (trimStart rest)).map fun parts =>
        { status := ofDecimals (digitValues status)
          description := shownAs (trim parts.1)
          content := parts.2 } := by
  rw [parseResponse, takeStatus_digits hdigits hlength]
  simp only [trimStart_cons_blank (by decide : isBlank (.char ' ') = true), takeJson_eq h tag,
    Yaml.ok_bind]
  cases splitResponseBlock tag (trimStart rest) <;> rfl

/-- Where a response without an example is read, its prose and its properties are those behind the
status, which does not start like an example. -/
theorem exists_of_parseResponse {status : Text} (hdigits : AreDigits status)
    (hlength : status.length = 3) {tag rest : Text} {x : Response}
    (h : parseResponse tag (status ++ .char ' ' :: rest) = .ok x) (hsample : x.sample = none) :
    (∀ c ∈ (trimStart rest).head?, c ≠ .char '\x7b' ∧ c ≠ .char '[') ∧
      ∃ prose, splitResponseBlock tag (trimStart rest) = .ok (prose, x.content) ∧
        x.description = shownAs (trim prose) := by
  rw [parseResponse, takeStatus_digits hdigits hlength] at h
  simp only [trimStart_cons_blank (by decide : isBlank (.char ' ') = true)] at h
  cases hjson : takeJson tag (trimStart rest) with
  | error e =>
      rw [hjson] at h
      cases h
  | ok parts =>
      obtain ⟨sample, behind⟩ := parts
      rw [hjson, Yaml.ok_bind] at h
      dsimp only at h
      cases hsplit : splitResponseBlock tag behind with
      | error e =>
          rw [hsplit] at h
          cases h
      | ok found =>
          obtain ⟨prose, properties⟩ := found
          rw [hsplit, Yaml.ok_bind] at h
          obtain rfl := Except.ok.inj h
          obtain rfl : sample = none := hsample
          -- No example has been cut off, so the block is looked for in the whole text.
          obtain ⟨rfl, hbracket⟩ := eq_of_takeJson hjson
          exact ⟨hbracket, prose, hsplit, rfl⟩

/-- What a text is cut into: at its first header, or behind its first line, if it has no header
and the lines below start a key map. -/
inductive CutAs (s : Text) : (prose block : Text) → Prop where
  /-- At the header. -/
  | header {prose block : Text} (h : cutBlock? true s = some (prose, block)) : CutAs s prose block
  /-- Behind the first line. -/
  | line {prose block : Text} (hcut : cutBlock? true s = none)
      (hs : s = prose ++ .char '\n' :: block) (hline : .char '\n' ∉ prose)
      (hmap : startsKeyMap block = true) : CutAs s prose block

/-- A response has the properties of the block that is cut from its text. -/
theorem splitResponseBlock_eq_ok_iff {tag s prose : Text} {properties : Properties} :
    splitResponseBlock tag s = .ok (prose, some properties) ↔
      ∃ block, CutAs s prose block ∧ parseBlock tag block = .ok properties := by
  rw [splitResponseBlock, splitBlock, splitBlockWith]
  cases hcut : cutBlock? true s with
  | some found =>
      obtain ⟨lead, block⟩ := found
      constructor
      · intro h
        obtain ⟨⟨_, _⟩, hfound, h⟩ := exists_of_bind_eq_ok h
        obtain ⟨p, hp, heq⟩ := exists_of_map_eq_ok hfound
        cases heq
        cases h
        exact ⟨block, .header hcut, hp⟩
      · rintro ⟨block, hblock, hp⟩
        cases hblock with
        | header h =>
            rw [hcut] at h
            cases h
            dsimp only
            rw [hp]
            rfl
        | line hnone =>
            rw [hcut] at hnone
            cases hnone
  | none =>
      dsimp only
      rw [Yaml.ok_bind]
      dsimp only
      constructor
      · intro h
        split at h
        · rename_i hmap
          obtain ⟨p, hp, heq⟩ := exists_of_map_eq_ok h
          cases heq
          -- Lines below the first one start a key map, so there is a line feed.
          have hmem : .char '\n' ∈ s := by
            by_contra hnone
            have hdrop : s.dropWhile (· ≠ (.char '\n' : CodePoint)) = [] :=
              List.dropWhile_eq_nil_iff.mpr (forall_mem_ne_of_not_mem hnone)
            rw [hdrop] at hmap
            cases hmap
          obtain ⟨line, body, rfl, hline⟩ := List.eq_append_cons_of_mem hmem
          rw [dropWhile_ne_append_cons hline, List.drop_one, List.tail_cons] at hmap hp
          rw [takeWhile_ne_append_cons hline]
          exact ⟨body, .line hcut rfl hline hmap, hp⟩
        · cases h
      · rintro ⟨block, hblock, hp⟩
        cases hblock with
        | header h =>
            rw [hcut] at h
            cases h
        | line hnone hs hline hmap =>
            -- The prose has no line feed, so the first one stands in front of the lines.
            rw [hs, takeWhile_ne_append_cons hline, dropWhile_ne_append_cons hline,
              List.drop_one, List.tail_cons, if_pos hmap, hp]
            rfl

/-- Lines without a header are a block if there is a line of prose above them. -/
theorem splitResponseBlock_bare {prose block : Text} (hline : .char '\n' ∉ prose)
    (hblock : OpensBlock block) (hheader : ¬ HoldsHeader (prose ++ .char '\n' :: block))
    (tag : Text) :
    splitResponseBlock tag (prose ++ .char '\n' :: block)
      = (parseBlock tag block).map fun properties => (prose, some properties) := by
  have hcut : cutBlock? true (prose ++ .char '\n' :: block) = none := by
    rw [Option.eq_none_iff_forall_ne_some]
    intro r hr
    exact hheader (holdsHeader_iff.mpr ⟨r, hr⟩)
  rw [splitResponseBlock, splitBlock, splitBlockWith, hcut]
  dsimp only
  rw [Yaml.ok_bind]
  dsimp only
  -- The prose has no line feed, so the first one stands in front of the lines.
  rw [takeWhile_ne_append_cons hline, dropWhile_ne_append_cons hline, List.drop_one, List.tail_cons,
    if_pos hblock.startsKeyMap_eq]

/-- Two descriptions that show the same are equal, or one is empty and the other is the word that
stands for it. -/
theorem eq_or_of_shownAs_eq {d e : Text} (h : shownAs d = shownAs e) :
    d = e ∨ d = [] ∧ e = "success" ∨ d = "success" ∧ e = [] := by
  rw [shownAs, shownAs] at h
  cases d with
  | nil => cases e with
    | nil => exact .inl rfl
    | cons c e => exact .inr (.inl ⟨rfl, h.symm⟩)
  | cons c d => cases e with
    | nil => exact .inr (.inr ⟨h, rfl⟩)
    | cons c' e => exact .inl h

/-- A block has more than blanks. -/
theorem OpensBlock.exists_not_blank {b : Text} (h : OpensBlock b) : ∃ c ∈ b, isBlank c = false := by
  induction h with
  | @first indent _ _ c hblank _ rest => exact ⟨c, by simp, hblank⟩
  | @later line _ rest _ ih =>
      obtain ⟨c, hc, hblank⟩ := ih
      exact ⟨c, by simp [hc], hblank⟩

/-- There are no blanks in front of a header. -/
theorem HeadsBlock.trimStart_eq {s block : Text} (h : HeadsBlock s block) : trimStart s = s := by
  obtain ⟨rest, rfl⟩ := h.exists_eq
  exact trimStart_blockMarker rest

namespace BlockResponse

variable (r : BlockResponse)

/-- The blanks in front of the block are dropped if there is no prose. -/
theorem trimStart_prose (rest : Text) :
    trimStart (r.description ++ .char '\n' :: rest)
      = if r.description = [] then trimStart rest else r.description ++ .char '\n' :: rest := by
  split
  · rename_i hnil
    rw [hnil, List.nil_append, trimStart_cons_blank (by decide)]
  · rename_i hne
    exact trimStart_append (trimStart_of_trim r.isPhrase_description.trimmed) hne _

/-- Prose with anything behind it does not start like an example. -/
theorem prose_ne_bracket (hne : r.description ≠ []) (rest : Text) :
    ∀ c ∈ (r.description ++ rest).head?, c ≠ .char '\x7b' ∧ c ≠ .char '[' := by
  obtain ⟨c, cs, hcs⟩ := List.exists_cons_of_ne_nil hne
  have h := r.description_ne_bracket
  rw [hcs] at h ⊢
  exact h

/-- A response with a header is read as its parts. -/
theorem parseResponse_headed (tag : Text) :
    parseResponse tag r.headed = (parseBlock tag r.block).map r.response := by
  have htext : trimStart (r.description ++ .char '\n' :: (blockMarker ++ .char '\n' :: r.block))
      = atop r.description (blockMarker ++ .char '\n' :: r.block) := by
    rw [r.trimStart_prose, trimStart_blockMarker, atop]
  -- An example in front of the block would start with a bracket.
  have hbracket : ∀ c ∈ (atop r.description (blockMarker ++ .char '\n' :: r.block)).head?,
      c ≠ .char '\x7b' ∧ c ≠ .char '[' := by
    rw [atop]
    split
    · intro c hc
      obtain rfl := Option.some.inj hc
      decide
    · rename_i hne
      exact r.prose_ne_bracket hne _
  obtain ⟨lead, hlead, hsplit⟩ := splitBlock_atop r.isPhrase_description r.opensBlock_block tag
  rw [headed, parseResponse_status r.areDigits_status r.length_status (by rwa [htext]), htext,
    splitResponseBlock, hsplit]
  cases parseBlock tag r.block with
  | error e => rfl
  | ok properties =>
      show Except.ok (Response.mk _ (shownAs (trim lead)) _ _ _) = _
      rw [hlead]
      rfl

/-- A response without a header is read as its parts if its block stands alone. -/
theorem parseResponse_bare_of_standsAlone (h : r.StandsAlone) (tag : Text) :
    parseResponse tag r.bare = (parseBlock tag r.block).map r.response := by
  have htext : trimStart r.bareText = r.bareText := by
    rw [bareText, r.trimStart_prose, if_neg h.1]
  have hbracket : ∀ c ∈ (trimStart r.bareText).head?, c ≠ .char '\x7b' ∧ c ≠ .char '[' := by
    rw [htext]
    exact r.prose_ne_bracket h.1 _
  rw [bare, parseResponse_status r.areDigits_status r.length_status hbracket, htext, bareText,
    splitResponseBlock_bare r.isPhrase_description.one_line r.opensBlock_block h.2]
  cases parseBlock tag r.block with
  | error e => rfl
  | ok properties =>
      show Except.ok (Response.mk _ (shownAs (trim r.description)) _ _ _) = _
      rw [r.isPhrase_description.trimmed]
      rfl

/-- The parts come back without the header: the text does not start like an example, what is cut
from it is shown as the description is, and the block that is cut has the properties. -/
def Regains (tag : Text) (properties : Properties) : Prop :=
  (∀ c ∈ (trimStart r.bareText).head?, c ≠ .char '\x7b' ∧ c ≠ .char '[') ∧
    ∃ prose block, CutAs (trimStart r.bareText) prose block ∧
      shownAs (trim prose) = shownAs r.description ∧ parseBlock tag block = .ok properties

/-- A response without a header is read as its parts exactly if these come back. -/
theorem parseResponse_bare_eq_ok_iff {tag : Text} {properties : Properties} :
    parseResponse tag r.bare = .ok (r.response properties) ↔ r.Regains tag properties := by
  constructor
  · intro h
    obtain ⟨hbracket, prose, hsplit, hshown⟩ :=
      exists_of_parseResponse r.areDigits_status r.length_status h rfl
    obtain ⟨block, hcut, hparse⟩ := splitResponseBlock_eq_ok_iff.mp hsplit
    exact ⟨hbracket, prose, block, hcut, hshown.symm, hparse⟩
  · rintro ⟨hbracket, prose, block, hcut, hshown, hparse⟩
    rw [bare, parseResponse_status r.areDigits_status r.length_status hbracket,
      splitResponseBlock_eq_ok_iff.mpr ⟨block, hcut, hparse⟩]
    show Except.ok (Response.mk _ (shownAs (trim prose)) _ _ _) = _
    rw [hshown]
    rfl

/-- The block starts with a word that a reader cannot tell from what is around it: a header, or
what an empty description is shown as. -/
def StartsAlike : Prop :=
  blockMarker <+: trimStart r.block ∨
    r.description = [] ∧ ("success" : Text) <+: trimStart r.block

/-- Where the prose in front of a header is the description, the header is where the block
starts. -/
theorem startsAlike_of_header {prose mark header block : Text}
    (htext : trimStart r.bareText = trimStart (prose ++ (mark ++ header)))
    (hheader : HeadsBlock header block) (hmark : ∀ c ∈ mark, isIndent c = true)
    (hshown : shownAs r.description = shownAs (trim prose)) : r.StartsAlike := by
  have hmarked : trimStart (mark ++ header) = header := by
    rw [trimStart_append_of_blank fun c hc => isBlank_of_isIndent (hmark c hc),
      hheader.trimStart_eq]
  obtain ⟨rest, hrest⟩ := hheader.exists_eq
  rw [bareText, r.trimStart_prose] at htext
  -- Three pairs of descriptions are shown alike: equal ones, and the two ways to leave it out.
  rcases eq_or_of_shownAs_eq hshown with heq | ⟨hnil, heq⟩ | ⟨hsuccess, heq⟩
  · left
    rw [hrest] at hmarked
    by_cases hnil : r.description = []
    · rw [if_pos hnil, trimStart_append_of_trim_eq_nil (heq ▸ hnil), hrest, hmarked] at htext
      exact ⟨rest, htext.symm⟩
    · -- The prose cancels, and there are only blanks between it and the header.
      obtain ⟨back, hback, hprose⟩ := exists_trimStart_append (heq ▸ hnil)
      rw [if_neg hnil, hprose, ← heq] at htext
      have hblock := congrArg trimStart (List.append_cancel_left htext)
      rw [trimStart_cons_blank (by decide), trimStart_append_of_blank hback, hrest, hmarked]
        at hblock
      exact ⟨rest, hblock.symm⟩
  · right
    obtain ⟨back, -, hprose⟩ := exists_trimStart_append (s := prose) (by rw [heq]; decide)
    rw [if_pos hnil, hprose, heq] at htext
    exact ⟨hnil, _, htext.symm⟩
  · -- A header does not start as this description does.
    rw [if_neg (hsuccess ▸ by decide), trimStart_append_of_trim_eq_nil heq, hmarked, hrest,
      hsuccess] at htext
    cases htext

/-- Where the first line of the block is the description, they start alike. -/
theorem startsAlike_of_line (hnil : r.description = []) {prose : Text}
    (hprose : prose = (trimStart r.block).takeWhile (· ≠ (.char '\n' : CodePoint)))
    (hshown : shownAs r.description = shownAs (trim prose)) : r.StartsAlike := by
  obtain ⟨c, cs, hcs⟩ := List.exists_cons_of_ne_nil
    (trimStart_ne_nil r.opensBlock_block.exists_not_blank)
  have hblank : isBlank c = false := isBlank_of_trimStart (hcs ▸ trimStart_trimStart r.block)
  have hne : trim prose ≠ [] := by
    have hc : c ≠ .char '\n' := by
      rintro rfl
      exact absurd hblank (by decide)
    rw [hprose, hcs, List.takeWhile_cons_of_pos (by simpa using hc), trim,
      trimStart_cons_of_not hblank, trimEnd_cons_of_not hblank]
    exact List.cons_ne_nil _ _
  -- No description is shown as one word only, so the first line is this word.
  have hsuccess : trim prose = "success" := by
    rcases eq_or_of_shownAs_eq hshown with heq | ⟨-, heq⟩ | ⟨hd, -⟩
    · exact absurd (heq ▸ hnil) hne
    · exact heq
    · exact absurd (hd.symm.trans hnil) (by decide)
  have hblock : trimStart r.block
      = trimStart (prose ++ (trimStart r.block).dropWhile (· ≠ (.char '\n' : CodePoint))) := by
    rw [hprose, List.takeWhile_append_dropWhile, trimStart_trimStart]
  obtain ⟨back, -, hstart⟩ := exists_trimStart_append hne
  rw [hstart, hsuccess] at hblock
  exact .inr ⟨hnil, _, hblock.symm⟩

/-- Where the parts come back without the header, the block stands alone, or starts as what is
around it may. -/
theorem standsAlone_or_startsAlike {tag : Text} {properties : Properties}
    (h : r.Regains tag properties) : r.StandsAlone ∨ r.StartsAlike := by
  obtain ⟨-, prose, block, hcut, hshown, -⟩ := h
  cases hcut with
  -- The bare text has a header after all: the text in front of it is the one that is shown.
  | header hcut =>
      obtain ⟨mark, header, htext, hheader, hmark, -⟩ := exists_of_cutBlock? hcut
      refine .inr (r.startsAlike_of_header ?_ hheader hmark hshown.symm)
      rw [← List.append_assoc, ← htext, trimStart_trimStart]
  | line hcut hs hline _ =>
      rw [bareText, r.trimStart_prose] at hcut hs
      -- Without a description the first line of the block is taken for one.
      by_cases hnil : r.description = []
      · rw [if_pos hnil] at hs
        refine .inr (r.startsAlike_of_line hnil ?_ hshown.symm)
        rw [hs, takeWhile_ne_append_cons hline]
      · rw [if_neg hnil] at hcut
        exact .inl ⟨hnil, not_holdsHeaderAt hcut⟩

end BlockResponse

/-- A block is read alike with and without its header if it stands alone, and fails alike. With the
header it is always read as it was meant. Without it, it is read so exactly if the parts come back
from the text, and then the block stands alone, or it starts with a word that may be taken for the
header or for the description. -/
theorem parseResponse_bare (r : BlockResponse) (tag : Text) :
    parseResponse tag r.headed = (parseBlock tag r.block).map r.response ∧
      (r.StandsAlone → parseResponse tag r.bare = parseResponse tag r.headed) ∧
      ∀ properties, parseBlock tag r.block = .ok properties →
        (parseResponse tag r.bare = parseResponse tag r.headed ↔ r.Regains tag properties) ∧
        (r.Regains tag properties → r.StandsAlone ∨ r.StartsAlike) := by
  refine ⟨r.parseResponse_headed tag, ?_, fun properties hparse => ⟨?_, ?_⟩⟩
  · intro h
    rw [r.parseResponse_headed, r.parseResponse_bare_of_standsAlone h]
  · rw [r.parseResponse_headed, hparse]
    exact r.parseResponse_bare_eq_ok_iff
  · exact r.standsAlone_or_startsAlike

/-- A response with the word of the header in its prose and in its block. -/
def createdResponse : BlockResponse where
  status := "201"
  description := "See properties: below"
  block := "\n  id: \x7b\x7d\n  properties: 1"
  areDigits_status := by simp only [AreDigits]; decide
  length_status := by decide
  isPhrase_description := ⟨by decide, by decide⟩
  description_ne_bracket := by decide
  opensBlock_block := opensBlock_of_startsIndented (by decide +kernel)

/-- It is read as it was meant, without a header. -/
theorem parseResponse_created :
    parseResponse "response" "201 See properties: below\n\n  id: \x7b\x7d\n  properties: 1"
      = .ok {
        status := 201
        description := "See properties: below"
        content := some [(.str "id", .object []), (.str "properties", .int 1)] } := by
  have htext : ("201 See properties: below\n\n  id: \x7b\x7d\n  properties: 1" : Text)
      = createdResponse.bare := by decide +kernel
  have hblock : parseBlock "response" createdResponse.block
      = .ok [(.str "id", .object []), (.str "properties", .int 1)] := by decide +kernel
  have halone : createdResponse.StandsAlone := ⟨by decide, not_holdsHeaderAt (by decide +kernel)⟩
  obtain ⟨hheaded, hbare, -⟩ := parseResponse_bare createdResponse "response"
  rw [htext, hbare halone, hheaded, hblock]
  decide +kernel

/-- The header of a field is taken for that of the block. -/
theorem parseResponse_owner_ne :
    parseResponse "response" "200 ok\n  owner:\n    properties:\n      id: integer"
      ≠ parseResponse "response"
        "200 ok\nproperties:\n  owner:\n    properties:\n      id: integer" := by
  decide +kernel

end RouteDocs.Tag
