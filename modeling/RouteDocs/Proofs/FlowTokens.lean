import RouteDocs.Yaml.TokenStream
import RouteDocs.Proofs.PlainScalar

/-!
# `RouteDocs.Proofs.FlowTokens`: the tokens of a one-line mapping

A shorthand line is written out as a name and a JSON mapping of scalars behind it, all on one
line. To YAML that is a block mapping with one entry, whose value is a flow mapping.
`TokenStream.ofText_line` gives its tokens.

The scanner is followed token by token. `Reaches` relates two of its states if a run from one
goes on as a run from the other, whatever the fuel, as long as it suffices for the text that
is left. The steps of a mapping's entry compose, and an induction over the entries gives
those of the mapping.

A key has to end within 1024 characters of its start. The keys of a schema do, but the name in
front may be longer: then the colon behind it stands where no value can start, and
`TokenStream.ofText_longName` gives the tokens that are left.
-/

set_option autoImplicit false

namespace RouteDocs.Yaml

open Text

namespace Scanner

/-! ### Steps on one line -/

/-- Runs from `s` go on as runs from `t`. -/
def Reaches (s t : Scanner) : Prop :=
  ∀ fuel, s.cursor.rest.length < fuel →
    ∃ fuel', t.cursor.rest.length < fuel' ∧ run fuel s = run fuel' t

/-- A scanner is reached from itself, at no cost. -/
theorem Reaches.refl (s : Scanner) : Reaches s s := fun fuel hfuel => ⟨fuel, hfuel, rfl⟩

/-- Runs go on from where others have led. The fuel is passed on, so a chain of steps needs no
more than its last one leaves. -/
theorem Reaches.trans {s t u : Scanner} (hst : Reaches s t) (htu : Reaches t u) : Reaches s u := by
  intro fuel hfuel
  obtain ⟨fuel', hfuel', hrun⟩ := hst fuel hfuel
  obtain ⟨fuel'', hfuel'', hrun'⟩ := htu fuel' hfuel'
  exact ⟨fuel'', hfuel'', hrun.trans hrun'⟩

/-- The text between two tokens on one line: nothing, or a space. -/
theorem toNextToken_onLine {gap rest : Text} {x : CodePoint} (hgap : ∀ c ∈ gap, c = .char ' ')
    (hx : x.IsPrintable) (hspace : x ≠ .char ' ') (hhash : x ≠ .char '#') {s : Scanner} {n : Nat}
    (hs : s.cursor = .onLine n (gap ++ x :: rest)) (fuel : Nat) :
    s.toNextToken (fuel + 1) = { s with cursor := .onLine (n + gap.length) (x :: rest) } := by
  have hskip : (Cursor.onLine n (gap ++ x :: rest)).skipSpaces
      = .onLine (n + gap.length) (x :: rest) := by
    have htake : (gap ++ x :: rest).takeWhile (fun c => decide (c = .char ' ')) = gap := by
      rw [List.takeWhile_append_of_pos fun c hc => by simp [hgap c hc]]
      simp [hspace]
    have hprint : ∀ c ∈ gap, c.IsPrintable := by
      intro c hc
      rw [hgap c hc]
      decide
    rw [Cursor.skipSpaces, Cursor.skip, Cursor.span, Cursor.onLine_rest, htake]
    exact Cursor.advance_append gap hprint n (x :: rest)
  have hat : (Cursor.onLine (n + gap.length) (x :: rest)).at_ '#' = false := by
    simp [Cursor.at_, Cursor.peek, hhash]
  rw [toNextToken, hs, hskip, hat]
  simp only [Bool.false_eq_true, if_false, lineBreak_onLine _ _ hx]

/-- No collection is closed by a column that is not before its own. -/
theorem unwindTo_eq_self {s : Scanner} {column : Int} (h : s.indent ≤ column) :
    s.unwindTo column = s := by
  rw [unwindTo]
  split
  · rfl
  · cases s.outer with
    | nil => rfl
    | cons o outer => rw [unwind, if_neg (by omega)]

/-- No place of a key is dropped while it is on the line and near. -/
theorem dropStale_eq_self {s : Scanner} (h : ∀ k ∈ s.keys, s.isStale k.2 = false) :
    s.dropStale = .ok s := by
  have hany : (s.keys.any fun k => s.isStale k.2 && k.2.required) = false := by
    rw [List.any_eq_false]
    intro k hk
    simp [h k hk]
  have hfilter : (s.keys.filter fun k => !s.isStale k.2) = s.keys := by
    rw [List.filter_eq_self]
    intro k hk
    simp [h k hk]
  rw [dropStale, hany, hfilter]
  rfl

/-- One token: the run goes on behind it. -/
theorem Reaches.of_tokenAt (n : Nat) (gap : Text) (x : CodePoint) (rest : Text) {s t : Scanner}
    (hs : s.cursor = .onLine n (gap ++ x :: rest)) (hgap : ∀ c ∈ gap, c = .char ' ')
    (hx : x.IsPrintable ∧ x ≠ .char ' ' ∧ x ≠ .char '#') (hindent : s.indent ≤ 0)
    (hkeys : ∀ k ∈ s.keys,
      isStale { s with cursor := .onLine (n + gap.length) (x :: rest) } k.2 = false)
    (hshort : t.cursor.rest.length ≤ rest.length)
    (h : ∀ fuel, rest.length < fuel →
      tokenAt { s with cursor := .onLine (n + gap.length) (x :: rest) } fuel x = .ok t) :
    Reaches s t := by
  intro fuel hfuel
  simp only [hs, Cursor.onLine_rest, List.length_append, List.length_cons] at hfuel
  obtain ⟨fuel, rfl⟩ : ∃ k, fuel = k + 1 := ⟨fuel - 1, by omega⟩
  refine ⟨fuel, by omega, ?_⟩
  -- The column is not in front of the indentation, so no block ends here.
  have hunwind : (unwindTo ((n + gap.length : Nat) : Int)
      { s with cursor := .onLine (n + gap.length) (x :: rest) })
        = { s with cursor := .onLine (n + gap.length) (x :: rest) } := by
    apply unwindTo_eq_self
    simp only
    omega
  have hstep : s.step (fuel + 1) = .ok (t, false) := by
    rw [step, toNextToken_onLine hgap hx.1 hx.2.1 hx.2.2 hs, dropStale_eq_self hkeys]
    simp only [bind, Except.bind, Cursor.onLine_column, hunwind, Cursor.onLine_rest,
      h (fuel + 1) (by omega)]
  rw [run, hstep]

/-! ### Which token stands where -/

/-- A character other than the marker is none: only three dashes or dots at the start of a
line are. -/
theorem atMarker_onLine {x mark : CodePoint} (h : x ≠ mark) (n : Nat) (rest : Text) :
    (Cursor.onLine n (x :: rest)).atMarker mark = false := by
  simp [Cursor.atMarker, Cursor.peek, h]

section
variable {s : Scanner} {n : Nat} {rest : Text} (fuel : Nat)

/-- At a quote the scanner reads a quoted text, which may be a key. -/
theorem tokenAt_quote (hs : s.cursor = .onLine n (.char '"' :: rest)) :
    tokenAt s fuel '"' = s.nodeToken fun c =>
      (quotedText true fuel c).map fun r => (.scalar r.1 false, r.2) := by
  simp [tokenAt, hs, atMarker_onLine]

/-- At a colon with a space behind it the scanner starts a value. -/
theorem tokenAt_colon (hs : s.cursor = .onLine n (.char ':' :: .char ' ' :: rest)) :
    tokenAt s fuel ':' = s.startValue := by
  simp [tokenAt, hs, atMarker_onLine, Cursor.peek, atGap]

/-- At an opening brace the scanner opens a flow mapping. -/
theorem tokenAt_brace (hs : s.cursor = .onLine n (.char '\x7b' :: rest)) :
    tokenAt s fuel '\x7b' = s.openFlow .flowMappingStart := by
  simp [tokenAt, hs, atMarker_onLine]

/-- At a closing brace it closes the mapping. -/
theorem tokenAt_closingBrace (hs : s.cursor = .onLine n (.char '\x7d' :: rest)) :
    tokenAt s fuel '\x7d' = s.closeFlow .flowMappingEnd := by
  simp [tokenAt, hs, atMarker_onLine]

/-- At a comma it ends an entry, and a key may follow. -/
theorem tokenAt_comma (hs : s.cursor = .onLine n (.char ',' :: rest)) :
    tokenAt s fuel ',' = (do
      let s ← { s with keyAllowed := true }.dropKey
      .ok (s.take 1 .flowEntry)) := by
  simp [tokenAt, hs, atMarker_onLine]

/-- A letter or digit is no indicator. -/
theorem not_indicator_of_isAlphanum {c : CodePoint} (h : c.isAlphanum = true) :
    ("%-.[]\x7b\x7d,?:*&!|>'\"#@" : Text).contains c = false ∧ c.toNat ≠ 0x60 := by
  have hall : ∀ n : Fin 128, (CodePoint.ofNat n).isAlphanum = true →
      ("%-.[]\x7b\x7d,?:*&!|>'\"#@" : Text).contains (CodePoint.ofNat n) = false ∧
        (CodePoint.ofNat n).toNat ≠ 0x60 := by
    decide +kernel
  have hlt : c.toNat < 128 := CodePoint.toNat_lt_of_isWordChar (by simp [CodePoint.isWordChar, h])
  have hc := hall ⟨c.toNat, hlt⟩
  simp only [CodePoint.ofNat_toNat] at hc
  exact hc h

/-- A character of a word is no gap. -/
theorem atGap_of_isWordChar {c : CodePoint} (h : c.isWordChar = true) : atGap (some c) = false := by
  obtain ⟨hprint, -, -⟩ := CodePoint.not_mark_of_isWordChar h
  have hspace : c ≠ .char ' ' := by
    rintro rfl
    cases h
  have htab : c ≠ .char '\t' := by
    rintro rfl
    cases h
  simp [atGap, hspace, htab, isBreak_of_isPrintable hprint]

/-- A word is read as a plain scalar. -/
theorem tokenAt_word {c : CodePoint} {cs : Text} (hword : IsPlainWord (c :: cs)) (hn : n ≠ 0)
    (hs : s.cursor = .onLine n (c :: (cs ++ rest))) :
    tokenAt s fuel c = s.plainToken fuel := by
  obtain ⟨c', cs', heq, hstart⟩ := hword.start
  obtain ⟨rfl, rfl⟩ := List.cons.inj heq
  rcases hstart with halpha | ⟨rfl, d, ds, rfl, halpha⟩
  · obtain ⟨hmarks, htick⟩ := not_indicator_of_isAlphanum halpha
    have hgap := atGap_of_isWordChar (hword.isWordChar c List.mem_cons_self)
    simp [Text.ofString] at hmarks
    simp [tokenAt, hs, hn, hmarks, startsPlain, Text.ofString, htick, hgap]
  · have hgap := atGap_of_isWordChar (hword.isWordChar d (by simp))
    simp [tokenAt, hs, hn, Cursor.peek, hgap, startsPlain]

end

/-- A quoted text, with the place of a key remembered if one may start. -/
theorem reaches_quoted (n : Nat) (gap t rest : Text) (hgap : ∀ c ∈ gap, c = .char ' ')
    {emitted : List Token} {count flow : Nat} {indent : Int} {outer : List Int} {keyAllowed : Bool}
    {keys : List (Nat × KeyPlace)} (hindent : indent ≤ 0)
    (hsave : saveKey ⟨.onLine (n + gap.length) (Json.stringText t ++ rest), emitted,
      count, flow, indent,
        outer, keyAllowed, []⟩
      = .ok ⟨.onLine (n + gap.length) (Json.stringText t ++ rest), emitted, count, flow,
        indent, outer,
        keyAllowed, keys⟩) :
    Reaches ⟨.onLine n (gap ++ (Json.stringText t ++ rest)), emitted, count, flow, indent, outer,
        keyAllowed, []⟩
      ⟨.onLine (n + gap.length + (Json.stringText t).length) rest,
        .scalar t.asUnits false :: emitted,
        count + 1, flow, indent, outer, false, keys⟩ := by
  -- The quote alone tells the scanner what follows.
  obtain ⟨body, hbody⟩ : ∃ body, Json.stringText t = .char '"' :: body := ⟨_, rfl⟩
  have htext : Json.stringText t ++ rest = .char '"' :: (body ++ rest) := by
    rw [hbody, List.cons_append]
  apply Reaches.of_tokenAt n gap (.char '"') (body ++ rest)
  · rw [htext]
  · exact hgap
  · decide
  · exact hindent
  · simp
  · simp
  · intro fuel hfuel
    have hlength : (Json.stringText t ++ rest).length ≤ fuel := by
      rw [htext, List.length_cons]
      omega
    rw [tokenAt_quote fuel rfl, nodeToken, ← htext, hsave]
    simp only [bind, Except.bind, quotedText_stringText t (n + gap.length) rest hlength]
    rfl

/-- A place is near if a key from it to here is not too long. -/
theorem isStale_onLine {n m : Nat} {rest text : Text} {emitted : List Token}
    {count flow number : Nat}
    {indent : Int} {outer : List Int} {keyAllowed required : Bool} {keys : List (Nat × KeyPlace)} :
    isStale ⟨.onLine n rest, emitted, count, flow, indent, outer, keyAllowed, keys⟩
        ⟨number, required, .onLine m text⟩
      = decide (1024 < n - m) := by
  rw [isStale]
  simp only [Cursor.onLine_line, bne_self_eq_false, Bool.false_or]
  rfl

/-- A colon behind a key of a flow collection puts the key's mark in front of it. -/
theorem startValue_inFlow (c : Cursor) (t : Token) (emitted : List Token) (count flow : Nat)
    (indent : Int)
    (outer : List Int) (keyAllowed required : Bool) (start : Cursor) :
    startValue ⟨c, t :: emitted, count + 1, flow + 1, indent, outer, keyAllowed,
        [(flow + 1, ⟨count, required, start⟩)]⟩
      = .ok ⟨c.next, .value :: t :: .key :: emitted, count + 3, flow + 1, indent, outer,
        false, []⟩ := by
  have hsince : count + 1 - count = 1 := Nat.add_sub_cancel_left count 1
  simp [startValue, emitAt, take, emit, inFlow, hsince, Cursor.advance]

/-- A colon behind the first key of a text opens a block mapping. -/
theorem startValue_atMargin (c : Cursor) (t : Token) (keyAllowed required : Bool) (start : Cursor) :
    startValue ⟨c, [t], 1, 0, -1, [], keyAllowed, [(0, ⟨0, required, start⟩)]⟩
      = .ok ⟨c.next, [.value, t, .key, .blockMappingStart], 4, 0, start.column, [-1],
        false, []⟩ := by
  have hdeeper : (-1 : Int) < start.column := by omega
  simp [startValue, emitAt, take, emit, inFlow, isDeeper, indentTo, hdeeper, Cursor.advance]

/-! ### Inside the flow mapping -/

/-- The scanner inside of a flow mapping in a block mapping, after the tokens `ts`. -/
def inMapping (n : Nat) (rest : Text) (ts : List Token) (keyAllowed : Bool) : Scanner :=
  ⟨.onLine n rest, ts.reverse, ts.length, 1, 0, [-1], keyAllowed, []⟩

/-- Tokens that come after others, inside of the mapping. -/
theorem inMapping_append (n : Nat) (rest : Text) (ts us : List Token) (keyAllowed : Bool) :
    inMapping n rest (ts ++ us) keyAllowed
      = ⟨.onLine n rest, us.reverse ++ ts.reverse, ts.length + us.length, 1, 0, [-1],
        keyAllowed, []⟩ := by
  rw [inMapping, List.reverse_append, List.length_append]

/-- A key of a flow mapping and its colon. -/
theorem reaches_key (n : Nat) (gap key rest : Text) (hgap : ∀ c ∈ gap, c = .char ' ')
    (hkey : (Json.stringText key).length ≤ 1024) (ts : List Token) :
    ∃ n', Reaches (inMapping n (gap ++
      (Json.stringText key ++ .char ':' :: .char ' ' :: rest)) ts true)
      (inMapping n' (.char ' ' :: rest)
        (ts ++ [.key, .scalar key.asUnits false, .value]) false) := by
  -- Behind the key the place where it started is known, and the colon needs it.
  have hfirst : Reaches (inMapping n (gap ++
      (Json.stringText key ++ .char ':' :: .char ' ' :: rest)) ts true)
      ⟨.onLine (n + gap.length + (Json.stringText key).length) (.char ':' :: .char ' ' :: rest),
        .scalar key.asUnits false :: ts.reverse, ts.length + 1, 1, 0, [-1], false,
        [(1, ⟨ts.length, false, .onLine (n + gap.length)
          (Json.stringText key ++ .char ':' :: .char ' ' :: rest)⟩)]⟩ :=
    reaches_quoted n gap key (.char ':' :: .char ' ' :: rest) hgap (Int.le_refl 0) rfl
  refine ⟨n + gap.length + (Json.stringText key).length + 1, hfirst.trans ?_⟩
  apply Reaches.of_tokenAt _ [] (.char ':') (.char ' ' :: rest) rfl (by simp) (by decide)
    (Int.le_refl 0)
  · intro k hk
    obtain rfl := List.mem_singleton.mp hk
    rw [isStale_onLine]
    exact decide_eq_false (by rw [List.length_nil]; omega)
  · exact Nat.le_refl _
  · intro fuel _
    have hnext := Cursor.next_onLine (c := .char ':') (by decide)
      (n + gap.length + (Json.stringText key).length) (.char ' ' :: rest)
    rw [tokenAt_colon fuel rfl, List.length_nil, Nat.add_zero, startValue_inFlow, hnext,
      inMapping_append]
    rfl

/-- What follows a value of a flow mapping: a comma or the closing brace. -/
def EndsValue (rest : Text) : Prop :=
  ∃ x after, rest = x :: after ∧ (x = .char ',' ∨ x = .char '\x7d')

/-- A character of a word does not end one, whatever follows. -/
theorem endsPlain_of_isWordChar {c : CodePoint} (h : c.isWordChar = true)
    (after : Option CodePoint) :
    endsPlain true c after = false := by
  obtain ⟨hprint, -, hmarks⟩ := CodePoint.not_mark_of_isWordChar h
  have hgap := atGap_of_isWordChar h
  simp [Text.ofString] at hmarks
  simp [atGap] at hgap
  simp [endsPlain, isFlowMark, Text.ofString, hmarks, hgap]

/-- A word goes on to its end. -/
theorem plainRun_word {w rest : Text} (hw : ∀ c ∈ w, c.isWordChar = true) (hrest : EndsValue rest) :
    plainRun true (w ++ rest) = w := by
  induction w with
  | nil =>
      obtain ⟨x, after, rfl, rfl | rfl⟩ := hrest
      · rfl
      · rfl
  | cons c cs ih =>
      rw [List.forall_mem_cons] at hw
      rw [List.cons_append, plainRun, endsPlain_of_isWordChar hw.1, ih hw.2]
      rfl

/-- A word is all of the plain scalar. -/
theorem plainText_word {w rest : Text} (hw : IsPlainWord w) (hrest : EndsValue rest) (indent : Int)
    (fuel n : Nat) :
    plainText true indent (fuel + 1) [] false (.onLine n (w ++ rest))
      = (w, false, .onLine (n + w.length) rest) := by
  obtain ⟨c, cs, rfl, -⟩ := hw.start
  have hprint : ∀ d ∈ c :: cs, d.IsPrintable :=
    fun d hd => (CodePoint.not_mark_of_isWordChar (hw.isWordChar d hd)).1
  have hhash : c ≠ .char '#' := by
    rintro rfl
    exact hw.not_mem rfl List.mem_cons_self
  have hat : (Cursor.onLine n (c :: cs ++ rest)).at_ '#' = false := by
    simp [Cursor.at_, Cursor.peek, hhash]
  -- What ends a value is neither a blank nor a line feed, so the word has no continuation.
  have hgap : plainGap fuel (.onLine (n + (c :: cs).length) rest)
      = (none, false, .onLine (n + (c :: cs).length) rest) := by
    obtain ⟨x, after, rfl, hx⟩ := hrest
    have hspace : x ≠ .char ' ' := by
      rcases hx with rfl | rfl <;> decide
    have hxprint : x.IsPrintable := by
      rcases hx with rfl | rfl <;> decide
    have hspan : (Cursor.onLine (n + (c :: cs).length) (x :: after)).span
        (fun y => decide (y = .char ' '))
        = ([], .onLine (n + (c :: cs).length) (x :: after)) := by
      simp [Cursor.span, hspace, Cursor.advance]
    rw [plainGap, hspan]
    simp only [lineBreak_onLine _ _ hxprint, List.isEmpty_nil, if_true]
  rw [plainText, hat, Cursor.onLine_rest, plainRun_word hw.isWordChar hrest]
  simp only [Bool.false_eq_true, if_false, List.isEmpty_cons, Cursor.advance_append _ hprint, hgap,
    List.nil_append]

/-- A plain scalar where no key may start. -/
theorem plainToken_of_plainText {c c' : Cursor} {emitted : List Token} {count flow fuel : Nat}
    {indent : Int}
    {outer : List Int} {keys : List (Nat × KeyPlace)} {text : Text} {broken : Bool}
    (h : plainText (flow != 0) (indent + 1) fuel [] false c = (text, broken, c')) :
    plainToken ⟨c, emitted, count, flow, indent, outer, false, keys⟩ fuel
      = .ok ⟨c', .scalar text true :: emitted, count + 1, flow, indent, outer, broken, keys⟩ := by
  have hsave : saveKey ⟨c, emitted, count, flow, indent, outer, false, keys⟩
      = .ok ⟨c, emitted, count, flow, indent, outer, false, keys⟩ := rfl
  rw [plainToken, hsave]
  simp only [bind, Except.bind, inFlow, h, emit]

/-- The value of a flow mapping's key. -/
theorem reaches_atom (n : Nat) (a : Atom) (rest : Text) (hrest : EndsValue rest) (ts : List Token) :
    ∃ n', Reaches (inMapping n (.char ' ' :: (a.written ++ rest)) ts false)
      (inMapping n' rest (ts ++ [.scalar a.content a.isPlain]) false) := by
  cases a with
  | quoted s =>
      refine ⟨n + 1 + (Json.stringText s).length, ?_⟩
      rw [inMapping_append]
      exact reaches_quoted n [.char ' '] s rest (by simp) (Int.le_refl 0) rfl
  | word w hw value reads =>
      obtain ⟨c, cs, rfl, -⟩ := hw.start
      have hc : c.isWordChar = true := hw.isWordChar c List.mem_cons_self
      have hmark := CodePoint.not_mark_of_isWordChar hc
      -- A character of words starts no other token.
      have hne : ∀ d : CodePoint, (" _:#?,[]\x7b\x7d\n" : Text).contains d = true → c ≠ d := by
        rintro d hd rfl
        rw [hmark.2.2] at hd
        cases hd
      refine ⟨n + 1 + (c :: cs).length, ?_⟩
      apply Reaches.of_tokenAt n [.char ' '] c (cs ++ rest)
      · rfl
      · simp
      · exact ⟨hmark.1, hne _ rfl, hne _ rfl⟩
      · exact Int.le_refl 0
      · intro k hk
        cases hk
      · simp [inMapping]
      · intro fuel hfuel
        obtain ⟨fuel, rfl⟩ : ∃ k, fuel = k + 1 := ⟨fuel - 1, by omega⟩
        rw [tokenAt_word (fuel + 1) hw (Nat.succ_ne_zero n) rfl, inMapping_append]
        exact plainToken_of_plainText (plainText_word hw hrest (0 + 1) fuel (n + 1))

/-- A comma between two entries. -/
theorem reaches_comma (n : Nat) (rest : Text) (ts : List Token) :
    Reaches (inMapping n (.char ',' :: rest) ts false)
      (inMapping (n + 1) rest (ts ++ [.flowEntry]) true) := by
  apply Reaches.of_tokenAt n [] (.char ',') rest rfl (by simp) (by decide) (Int.le_refl 0)
  · intro k hk
    cases hk
  · exact Nat.le_refl _
  · intro fuel _
    have hnext := Cursor.next_onLine (c := .char ',') (by decide) n rest
    rw [tokenAt_comma fuel rfl, inMapping_append, ← hnext]
    rfl

/-! ### The entries of the flow mapping -/

/-- One entry as JSON writes it. -/
def entryText (e : Text × Atom) : Text := Json.stringText e.1 ++ ": " ++ e.2.written

/-- The tokens of one entry. -/
def entryTokens (e : Text × Atom) : List Token :=
  [.key, .scalar e.1.asUnits false, .value, .scalar e.2.content e.2.isPlain]

/-- The tokens of entries with commas between them. -/
def entriesTokens (entries : List (Text × Atom)) : List Token :=
  [Token.flowEntry].intercalate (entries.map entryTokens)

/-- The scanner goes through one entry, with spaces in front, and leaves its tokens: a key, a
colon and a value. The key has to be short enough, as YAML gives up on a long one. -/
theorem reaches_entry (n : Nat) (gap : Text) (hgap : ∀ c ∈ gap, c = .char ' ') (e : Text × Atom)
    (hkey : (Json.stringText e.1).length ≤ 1024) (rest : Text) (hrest : EndsValue rest)
    (ts : List Token) :
    ∃ n', Reaches (inMapping n (gap ++ (entryText e ++ rest)) ts true)
      (inMapping n' rest (ts ++ entryTokens e) false) := by
  obtain ⟨key, a⟩ := e
  obtain ⟨n₁, hfirst⟩ := reaches_key n gap key (a.written ++ rest) hgap hkey ts
  obtain ⟨n₂, hsecond⟩ :=
    reaches_atom n₁ a rest hrest (ts ++ [.key, .scalar key.asUnits false, .value])
  refine ⟨n₂, ?_⟩
  have htext : entryText (key, a) ++ rest
      = Json.stringText key ++ .char ':' :: .char ' ' :: (a.written ++ rest) := by
    simp [entryText, Text.ofString]
  rw [htext]
  rw [List.append_assoc] at hsecond
  exact hfirst.trans hsecond

/-- The entries of a flow mapping. -/
theorem reaches_entries (n : Nat) (gap : Text) (hgap : ∀ c ∈ gap, c = .char ' ') (e : Text × Atom)
    (entries : List (Text × Atom))
    (hkeys : ∀ e' ∈ e :: entries, (Json.stringText e'.1).length ≤ 1024)
    (rest : Text) (ts : List Token) :
    ∃ n', Reaches
      (inMapping n (gap ++ ((", " : Text).intercalate ((e :: entries).map entryText) ++
        .char '\x7d' :: rest))
        ts true)
      (inMapping n' (.char '\x7d' :: rest) (ts ++ entriesTokens (e :: entries)) false) := by
  -- On the entries behind the first one, which is read in each step.
  induction entries generalizing n gap e ts with
  | nil =>
      have hend : EndsValue (.char '\x7d' :: rest) := ⟨_, rest, rfl, .inr rfl⟩
      obtain ⟨n', hentry⟩ := reaches_entry n gap hgap e (hkeys e List.mem_cons_self) _ hend ts
      exact ⟨n', by simpa [entriesTokens] using hentry⟩
  | cons e' entries ih =>
      have htext : (", " : Text).intercalate ((e :: e' :: entries).map entryText) ++
          .char '\x7d' :: rest
          = entryText e ++ .char ',' :: ([.char ' '] ++
            ((", " : Text).intercalate ((e' :: entries).map entryText) ++
              .char '\x7d' :: rest)) := by
        simp [List.intercalate_cons_cons, Text.ofString]
      have htokens : ts ++ entriesTokens (e :: e' :: entries)
          = ts ++ entryTokens e ++ [.flowEntry] ++ entriesTokens (e' :: entries) := by
        simp [entriesTokens, List.intercalate_cons_cons]
      have hcomma : EndsValue (.char ',' :: ([.char ' '] ++
          ((", " : Text).intercalate ((e' :: entries).map entryText) ++ .char '\x7d' :: rest))) :=
        ⟨_, _, rfl, .inl rfl⟩
      obtain ⟨n₁, hentry⟩ := reaches_entry n gap hgap e (hkeys e List.mem_cons_self) _ hcomma ts
      obtain ⟨n₂, hrest⟩ := ih (n₁ + 1) [.char ' '] (by simp) e'
        (fun x hx => hkeys x (List.mem_cons_of_mem _ hx)) (ts ++ entryTokens e ++ [.flowEntry])
      refine ⟨n₂, ?_⟩
      rw [htext, htokens]
      exact (hentry.trans (reaches_comma n₁ _ _)).trans hrest

/-- The closing brace ends the flow mapping. -/
theorem reaches_close (n : Nat) (ts : List Token) (keyAllowed : Bool) :
    Reaches (inMapping n [.char '\x7d'] ts keyAllowed)
      ⟨.onLine (n + 1) [], .flowMappingEnd :: ts.reverse, ts.length + 1, 0, 0, [-1],
        false, []⟩ := by
  apply Reaches.of_tokenAt n [] (.char '\x7d') [] rfl (by simp) (by decide) (Int.le_refl 0)
  · intro k hk
    cases hk
  · exact Nat.le_refl _
  · intro fuel _
    have hnext := Cursor.next_onLine (c := .char '\x7d') (by decide) n []
    rw [tokenAt_closingBrace fuel rfl, ← hnext]
    rfl

/-- The end of the text ends the block mapping. -/
theorem run_end (fuel n count : Nat) (emitted : List Token) :
    run (fuel + 1) ⟨.onLine n [], emitted, count, 0, 0, [-1], false, []⟩
      = ⟨emitted.reverse ++ [.blockEnd, .streamEnd], none⟩ := by
  have hnext : toNextToken (fuel + 1) ⟨.onLine n [], emitted, count, 0, 0, [-1], false, []⟩
      = ⟨.onLine n [], emitted, count, 0, 0, [-1], false, []⟩ := rfl
  have hstep : step ⟨.onLine n [], emitted, count, 0, 0, [-1], false, []⟩ (fuel + 1)
      = .ok (⟨.onLine n [], .streamEnd :: .blockEnd :: emitted, count + 2, 0, -1, [], false, []⟩,
        true) := by
    rw [step, hnext, dropStale_eq_self (by simp)]
    simp only [bind, Except.bind]
    rw [unwindTo_eq_self (by simp)]
    rfl
  rw [run, hstep]
  simp [tokens]

/-! ### The whole line -/

/-- A name and a mapping of scalars behind it, as JSON writes them. -/
def lineText (name : Text) (entries : List (Text × Atom)) : Text :=
  Json.stringText name ++ ": " ++
    Json.Layout.compact.enclose 0 '\x7b' '\x7d' (entries.map entryText)

/-- The tokens of the line. -/
def lineTokens (name : Text) (entries : List (Text × Atom)) : List Token :=
  [.blockMappingStart, .key, .scalar name.asUnits false, .value, .flowMappingStart] ++
    entriesTokens entries ++ [.flowMappingEnd, .blockEnd, .streamEnd]

/-- The scanner behind the name, with the place where it started. -/
def behindName (name rest : Text) : Scanner :=
  ⟨.onLine (Json.stringText name).length rest, [.scalar name.asUnits false], 1, 0, -1, [], false,
    [(0, ⟨0, false, .onLine 0 (Json.stringText name ++ rest)⟩)]⟩

/-- The scanner goes through the name in front of the mapping. It may become a key when a
colon follows. -/
theorem reaches_behindName (name rest : Text) :
    Reaches (ofText (Json.stringText name ++ rest)) (behindName name rest) := by
  have hquoted : Reaches (ofText (Json.stringText name ++ rest))
      ⟨.onLine (0 + (Json.stringText name).length) rest, [.scalar name.asUnits false], 1, 0,
        -1, [], false,
        [(0, ⟨0, false, .onLine 0 (Json.stringText name ++ rest)⟩)]⟩ :=
    reaches_quoted 0 [] name rest (by simp) (by decide) rfl
  rwa [Nat.zero_add] at hquoted

/-- The name up to the opening brace. -/
theorem reaches_name {name : Text} (hname : (Json.stringText name).length ≤ 1024) (rest : Text) :
    ∃ n, Reaches (ofText (Json.stringText name ++ .char ':' :: .char ' ' :: .char '\x7b' :: rest))
      (inMapping n rest [.blockMappingStart, .key, .scalar name.asUnits false, .value,
        .flowMappingStart]
        true) := by
  -- The colon makes the name a key, and a block mapping starts at the margin.
  have hcolon : Reaches (behindName name (.char ':' :: .char ' ' :: .char '\x7b' :: rest))
      ⟨.onLine ((Json.stringText name).length + 1) (.char ' ' :: .char '\x7b' :: rest),
        [.value, .scalar name.asUnits false, .key, .blockMappingStart], 4, 0, 0, [-1],
          false, []⟩ := by
    apply Reaches.of_tokenAt (Json.stringText name).length [] (.char ':')
      (.char ' ' :: .char '\x7b' :: rest)
      rfl (by simp) (by decide) (show (-1 : Int) ≤ 0 by decide)
    · intro k hk
      obtain rfl := List.mem_singleton.mp hk
      rw [isStale_onLine]
      exact decide_eq_false (by rw [List.length_nil]; omega)
    · exact Nat.le_refl _
    · intro fuel _
      have hnext := Cursor.next_onLine (c := .char ':') (by decide) (Json.stringText name).length
        (.char ' ' :: .char '\x7b' :: rest)
      rw [tokenAt_colon fuel rfl, List.length_nil, Nat.add_zero, behindName,
        startValue_atMargin, hnext]
      rfl
  -- The brace opens the value on the same line.
  have hbrace : Reaches ⟨.onLine ((Json.stringText name).length + 1)
      (.char ' ' :: .char '\x7b' :: rest),
        [.value, .scalar name.asUnits false, .key, .blockMappingStart], 4, 0, 0, [-1], false, []⟩
      (inMapping ((Json.stringText name).length + 3) rest
        [.blockMappingStart, .key, .scalar name.asUnits false, .value,
          .flowMappingStart] true) := by
    apply Reaches.of_tokenAt ((Json.stringText name).length + 1) [.char ' '] (.char '\x7b') rest
      rfl (by simp) (by decide) (Int.le_refl 0)
    · intro k hk
      cases hk
    · exact Nat.le_refl _
    · intro fuel _
      have hnext := Cursor.next_onLine (c := .char '\x7b') (by decide)
          ((Json.stringText name).length + 1 + 1)
        rest
      rw [tokenAt_brace fuel rfl, inMapping, ← hnext]
      rfl
  exact ⟨_, ((reaches_behindName name _).trans hcolon).trans hbrace⟩

/-- The colon behind a name that is too long cannot start a value. -/
theorem run_behindName {name : Text} (hname : 1024 < (Json.stringText name).length) (fuel : Nat)
    (rest : Text) :
    run (fuel + 1) (behindName name (.char ':' :: .char ' ' :: rest))
      = ⟨[.scalar name.asUnits false], some .malformed⟩ := by
  -- The colon is too far from where the name started, so that place is dropped.
  have hstale : isStale (behindName name (.char ':' :: .char ' ' :: rest))
      ⟨0, false, .onLine 0 (Json.stringText name ++ .char ':' :: .char ' ' :: rest)⟩ = true := by
    rw [behindName, isStale_onLine]
    exact decide_eq_true hname
  have hgap : ∀ c ∈ ([] : Text), c = .char ' ' := by simp
  have hnext : toNextToken (fuel + 1) (behindName name (.char ':' :: .char ' ' :: rest))
      = behindName name (.char ':' :: .char ' ' :: rest) :=
    toNextToken_onLine hgap (by decide) (by decide) (by decide) rfl fuel
  have hdrop : dropStale (behindName name (.char ':' :: .char ' ' :: rest))
      = .ok { behindName name (.char ':' :: .char ' ' :: rest) with keys := [] } := by
    simp only [dropStale, behindName, List.any_cons, List.any_nil, Bool.and_false, Bool.or_false,
      Bool.false_eq_true, if_false, List.filter_cons, List.filter_nil]
    rw [← behindName, hstale]
    rfl
  have htoken : tokenAt { behindName name (.char ':' :: .char ' ' :: rest) with keys := [] }
      (fuel + 1) ':'
      = .error .malformed := by
    rw [tokenAt_colon (fuel + 1) rfl]
    rfl
  have hstep : step (behindName name (.char ':' :: .char ' ' :: rest)) (fuel + 1)
      = .error .malformed := by
    rw [step, hnext, hdrop]
    simp only [bind, Except.bind]
    rw [unwindTo_eq_self (by simp [behindName])]
    simp only [behindName, Cursor.onLine_rest] at htoken ⊢
    rw [htoken]
  rw [run, hstep]
  simp only [behindName, List.filter_cons, List.filter_nil]
  rw [← behindName, hstale]
  rfl

/-- The line in the parts that the scanner goes through. -/
theorem lineText_eq (name : Text) (entries : List (Text × Atom)) :
    lineText name entries = Json.stringText name ++ .char ':' :: .char ' ' :: .char '\x7b' ::
      ((", " : Text).intercalate (entries.map entryText) ++ [.char '\x7d']) := by
  rw [lineText, Json.Layout.enclose_compact]
  simp [Text.ofString]

/-- What JSON writes for a text is printable, as everything else is escaped. -/
theorem isPrintable_of_mem_stringText {s : Text} {c : CodePoint} (h : c ∈ Json.stringText s) :
    c.IsPrintable := by
  rw [Json.stringText, List.mem_append, List.mem_append] at h
  rcases h with (h | h) | h
  · obtain rfl := List.mem_singleton.mp h
    decide
  · obtain ⟨d, -, hd⟩ := List.mem_flatMap.mp h
    exact isPrintable_of_mem_charText hd
  · obtain rfl := List.mem_singleton.mp h
    decide

/-- So is what it writes for an atom. -/
theorem isPrintable_of_mem_written {a : Atom} {c : CodePoint} (h : c ∈ a.written) :
    c.IsPrintable := by
  cases a with
  | quoted s => exact isPrintable_of_mem_stringText h
  | word w hw value reads => exact (CodePoint.not_mark_of_isWordChar (hw.isWordChar c h)).1

/-- And so is an entry as a whole. -/
theorem isPrintable_of_mem_entryText {e : Text × Atom} {c : CodePoint} (h : c ∈ entryText e) :
    c.IsPrintable := by
  rw [entryText, List.mem_append, List.mem_append] at h
  rcases h with (h | h) | h
  · exact isPrintable_of_mem_stringText h
  · have hcolon : ∀ d ∈ (": " : Text), d.IsPrintable := by decide
    exact hcolon c h
  · exact isPrintable_of_mem_written h

/-- What JSON writes is printable. -/
theorem isPrintable_of_mem_lineText {name : Text} {entries : List (Text × Atom)} {c : CodePoint}
    (h : c ∈ lineText name entries) : c.IsPrintable := by
  have hparts : ∀ d ∈ (", " : Text).intercalate (entries.map entryText), d.IsPrintable := by
    refine forall_mem_intercalate (P := CodePoint.IsPrintable) (by decide) ?_
    rintro part hpart d hd
    obtain ⟨e, -, rfl⟩ := List.mem_map.mp hpart
    exact isPrintable_of_mem_entryText hd
  rw [lineText_eq, List.mem_append] at h
  rcases h with h | h
  · exact isPrintable_of_mem_stringText h
  · simp only [List.mem_cons, List.mem_append, List.not_mem_nil, or_false] at h
    rcases h with rfl | rfl | rfl | h | rfl
    · decide
    · decide
    · decide
    · exact hparts c h
    · decide

end Scanner

/-- YAML allows what is printable. -/
theorem isAllowed_of_isPrintable {c : CodePoint} (h : c.IsPrintable) : isAllowed c = true := by
  have hle : c.toNat ≤ 0x7e := Nat.le_of_lt_succ h.2
  simp [isAllowed, h.1, hle]

/-- The tokens of a text of printable characters, from those of a run that its scanner reaches. -/
theorem TokenStream.ofText_of_reaches {text : Text} (h : ∀ c ∈ text, c.IsPrintable) {s : Scanner}
    (hs : Scanner.Reaches (Scanner.ofText text) s) {stream : TokenStream}
    (hrun : ∀ fuel, s.cursor.rest.length < fuel → s.run fuel = stream) :
    TokenStream.ofText text = stream := by
  have hall : text.all isAllowed = true := by
    rw [List.all_eq_true]
    exact fun c hc => isAllowed_of_isPrintable (h c hc)
  have hmark : text.head? ≠ some (CodePoint.ofNat 0xfeff) := by
    intro hhead
    have hprint := h _ (List.mem_of_head? hhead)
    exact absurd hprint (by decide)
  obtain ⟨fuel, hfuel, heq⟩ := hs (text.length + 2) (Nat.lt_add_of_pos_right (by decide))
  rw [TokenStream.ofText, hall]
  simp only [Bool.not_true, Bool.false_eq_true, if_false, if_neg hmark]
  rw [heq, hrun fuel hfuel]

/-- The tokens of a line with a name that is not too long. -/
theorem TokenStream.ofText_line {name : Text} (hname : (Json.stringText name).length ≤ 1024)
    (entries : List (Text × Atom)) (hkeys : ∀ e ∈ entries, (Json.stringText e.1).length ≤ 1024) :
    TokenStream.ofText (Scanner.lineText name entries)
      = ⟨Scanner.lineTokens name entries, none⟩ := by
  obtain ⟨n₁, hfirst⟩ := Scanner.reaches_name hname
    ((", " : Text).intercalate (entries.map Scanner.entryText) ++ [.char '\x7d'])
  rw [← Scanner.lineText_eq] at hfirst
  -- Without entries the brace is closed at once, and a key may still start there.
  obtain ⟨n₂, keyAllowed, hentries⟩ : ∃ n₂ keyAllowed,
      Scanner.Reaches (Scanner.ofText (Scanner.lineText name entries))
      (Scanner.inMapping n₂ [.char '\x7d']
        ([.blockMappingStart, .key, .scalar name.asUnits false, .value, .flowMappingStart] ++
          Scanner.entriesTokens entries) keyAllowed) := by
    cases entries with
    | nil => exact ⟨n₁, true, hfirst⟩
    | cons e entries =>
        obtain ⟨n₂, hentries⟩ := Scanner.reaches_entries n₁ [] (by simp) e entries hkeys []
          [.blockMappingStart, .key, .scalar name.asUnits false, .value, .flowMappingStart]
        exact ⟨n₂, false, hfirst.trans hentries⟩
  apply TokenStream.ofText_of_reaches (fun c => Scanner.isPrintable_of_mem_lineText)
    (hentries.trans (Scanner.reaches_close n₂ _ keyAllowed))
  intro fuel hfuel
  obtain ⟨fuel, rfl⟩ : ∃ k, fuel = k + 1 := ⟨fuel - 1, by omega⟩
  rw [Scanner.run_end, Scanner.lineTokens]
  simp

/-- Of a line with a longer name there is the name, and no more. -/
theorem TokenStream.ofText_longName {name : Text} (hname : 1024 < (Json.stringText name).length)
    (entries : List (Text × Atom)) :
    TokenStream.ofText (Scanner.lineText name entries)
      = ⟨[.scalar name.asUnits false], some .malformed⟩ := by
  apply TokenStream.ofText_of_reaches (fun c => Scanner.isPrintable_of_mem_lineText)
  · rw [Scanner.lineText_eq]
    exact Scanner.reaches_behindName name _
  · intro fuel hfuel
    obtain ⟨fuel, rfl⟩ : ∃ k, fuel = k + 1 := ⟨fuel - 1, by omega⟩
    exact Scanner.run_behindName hname fuel _

end RouteDocs.Yaml
