import RouteDocs.Proofs.PathResolution
import RouteDocs.Proofs.ShellWords

/-!
# `RouteDocs.Proofs.ShellSample`: what a shell makes of a sample

A shell sample is written for a call: `curl` with a method, an address, headers and perhaps a body
(`Command`). The address and the headers are put between double quotes and the body between
apostrophes, as they are. The method is not quoted at all. So a shell reads the command back if and
only if each part may stand where it does (`IsReadable`). `bash_reads_iff` says so for every
endpoint.

That a command is read back only if its parts are readable is seen from left to right. The address
and everything behind it is in quotes, and what is read from a quoted text is read from all of it
(`Shell.run_of_shellWords?`). The method is different: it may begin with blanks, and quotes in it
may take in the address. But then some character is read too often or not at all, and
`isBareWord_of_reads` counts them.
-/

set_option autoImplicit false

namespace RouteDocs.CodeSample

open Text Shell

/-! ### The command of a sample -/

/-- A call of an endpoint from a shell. -/
structure Command where
  /-- The method. -/
  method : Text
  /-- The address, with the query. -/
  address : Text
  /-- The headers. -/
  headers : List (Text × Text)
  /-- The body, if there is one. -/
  body : Option Text

/-- What goes between the lines of a sample. -/
def nextLine : Text := " \\\n    "

/-- A header as it is sent. -/
def headerLine (h : Text × Text) : Text := h.1 ++ ": " ++ h.2

/-- A header on a line of its own. -/
def headerOption (h : Text × Text) : Text := "-H \"" ++ headerLine h ++ "\""

/-- A body on a line of its own. -/
def bodyOption (text : Text) : Text := "-d '" ++ text ++ "'"

namespace Command

/-- The words behind the address. -/
def optionWords (c : Command) : List Text :=
  (c.headers.flatMap fun h => [ofString "-H", headerLine h]) ++
    c.body.toList.flatMap fun text => [ofString "-d", text]

/-- The words of the command. -/
def words (c : Command) : List Text :=
  ofString "curl" :: ofString "-X" :: c.method :: c.address :: c.optionWords

/-- The lines behind the first. -/
def options (c : Command) : Text :=
  (c.headers.flatMap fun h => nextLine ++ headerOption h) ++
    c.body.toList.flatMap fun text => nextLine ++ bodyOption text

/-- The text that shows the command. -/
def source (c : Command) : Text :=
  "curl -X " ++ c.method ++ " \"" ++ c.address ++ "\"" ++ c.options

/-- Each part may stand where it does. -/
structure IsReadable (c : Command) : Prop where
  /-- The method needs no quotes. -/
  method : IsBareWord c.method
  /-- The address may stand between double quotes. -/
  address : IsQuotable c.address
  /-- So may each header. -/
  headers : ∀ h ∈ c.headers, IsQuotable (headerLine h)
  /-- There is no apostrophe in the body. -/
  body : ∀ b ∈ c.body, .char '\'' ∉ b

end Command

/-- The command that calls an endpoint, as far as its values have a text. -/
def command (baseUrl : Text) (e : Endpoint) : Except Fault Command := do
  let address ← url baseUrl e
  let pairs ← (query e).mapM fun p => (queryText p.2).map fun v => (p.1, v)
  let asked ← queryPart pairs
  let m ← method e
  let data ←
    if (body e).isEmpty then .ok none
    else (json .compact (.ofFields (body e))).map some
  .ok ⟨m, address ++ asked, headers e, data⟩

/-- Parts with a separator between them: the first, and the others with the separator in
front of each. -/
theorem intercalate_cons_eq_append (separator first : Text) (others : List Text) :
    separator.intercalate (first :: others) = first ++ others.flatMap (separator ++ ·) := by
  induction others generalizing first with
  | nil => simp
  | cons next others ih =>
      rw [List.intercalate_cons_cons, ih, List.flatMap_cons, List.append_assoc, List.append_assoc]

/-- A sample is the text of the command that calls the endpoint. -/
theorem bash_eq_map_source (baseUrl : Text) (e : Endpoint) :
    bash baseUrl e = (command baseUrl e).map Command.source := by
  have hsource : ∀ (m address asked : Text) (data : Option Text),
      (ofString " \\\n    ").intercalate
          ((ofString "curl -X " ++ m ++ " \"" ++ address ++ asked ++ "\"") ::
            ((headers e).map fun h => ofString "-H \"" ++ h.1 ++ ": " ++ h.2 ++ "\"") ++
            data.toList.map fun text => ofString "-d '" ++ text ++ "'")
        = Command.source ⟨m, address ++ asked, headers e, data⟩ := by
    intro m address asked data
    rw [List.cons_append, intercalate_cons_eq_append, List.flatMap_append, List.flatMap_map,
      List.flatMap_map]
    simp only [Command.source, Command.options, headerOption, headerLine, bodyOption, nextLine,
      List.append_assoc]
  -- Both take the same steps, and only put the texts together in their own ways.
  rw [bash, command]
  cases url baseUrl e with
  | error f => rfl
  | ok address =>
    simp only [Yaml.ok_bind]
    cases ((query e).mapM fun p => (queryText p.2).map fun v => (p.1, v)) with
    | error f => rfl
    | ok pairs =>
      simp only [Yaml.ok_bind]
      cases queryPart pairs with
      | error f => rfl
      | ok asked =>
        simp only [Yaml.ok_bind]
        cases method e with
        | error f => rfl
        | ok m =>
          cases (body e).isEmpty with
          | true => exact congrArg Except.ok (hsource m address asked none)
          | false =>
            cases json .compact (.ofFields (body e)) with
            | error f => rfl
            | ok text => exact congrArg Except.ok (hsource m address asked (some text))

/-! ### The options -/

/-- The name of the command stands for itself. -/
theorem isBareWord_curl : IsBareWord "curl" := ⟨⟨_, _, rfl, by decide⟩, by decide⟩

/-- So does the option in front of the method. -/
theorem isBareWord_request : IsBareWord "-X" := ⟨⟨_, _, rfl, by decide⟩, by decide⟩

/-- And the one in front of a header. -/
theorem isBareWord_header : IsBareWord "-H" := ⟨⟨_, _, rfl, by decide⟩, by decide⟩

/-- And the one in front of the body. -/
theorem isBareWord_data : IsBareWord "-d" := ⟨⟨_, _, rfl, by decide⟩, by decide⟩

variable {word s t : Text} {ws : List Text}

/-- A word without quotes, and a space behind it. -/
theorem shellWords?_bare_iff (h : IsBareWord word) :
    shellWords? (word ++ .char ' ' :: s) = some (word :: ws) ↔ shellWords? s = some ws := by
  have hspace : isGap (.char ' ') = true := rfl
  have hapart : IsApart (.char ' ' :: s) := by
    rintro _ ⟨⟩
    exact hspace
  rw [h.shellWords?_append hapart, shellWords?_gap hspace, Option.map_eq_some_iff]
  constructor
  · rintro ⟨_, hs, heq⟩
    obtain ⟨-, rfl⟩ := List.cons.inj heq
    exact hs
  · intro hs
    exact ⟨ws, hs, rfl⟩

/-- The end of a line is passed over: a backslash with a line feed, and blanks. -/
theorem shellWords?_nextLine (s : Text) : shellWords? (nextLine ++ s) = shellWords? s := by
  have hspace : isGap (.char ' ') = true := rfl
  show shellWords? (.char ' ' :: .char '\\' :: .char '\n' :: .char ' ' :: .char ' ' :: .char ' ' ::
    .char ' ' :: s) = _
  rw [shellWords?_gap hspace, shellWords?_continued, shellWords?_gap hspace, shellWords?_gap hspace,
    shellWords?_gap hspace, shellWords?_gap hspace]

/-- It also ends the word in front of it. -/
theorem isApart_nextLine (s : Text) : IsApart (nextLine ++ s) := by
  rintro _ ⟨⟩
  rfl

/-- A header is read as one word exactly if it stands for itself between double quotes. -/
theorem reads_headerOption_iff {h : Text × Text} (ht : IsApart t) :
    shellWords? (nextLine ++ headerOption h ++ t) = some (ofString "-H" :: headerLine h :: ws) ↔
      IsQuotable (headerLine h) ∧ shellWords? t = some ws := by
  have htext : nextLine ++ headerOption h ++ t
      = nextLine ++ (ofString "-H" ++
          .char ' ' :: .char '"' :: (headerLine h ++ .char '"' :: t)) := by
    simp [headerOption, ofString]
  rw [htext, shellWords?_nextLine, shellWords?_bare_iff isBareWord_header,
    shellWords?_double_iff ht]

/-- A body is read as one word exactly if there is no single quote in it. -/
theorem reads_bodyOption_iff {text : Text} (ht : IsApart t) :
    shellWords? (nextLine ++ bodyOption text ++ t) = some (ofString "-d" :: text :: ws) ↔
      .char '\'' ∉ text ∧ shellWords? t = some ws := by
  have htext : nextLine ++ bodyOption text ++ t
      = nextLine ++ (ofString "-d" ++ .char ' ' :: .char '\'' :: (text ++ .char '\'' :: t)) := by
    simp [bodyOption, ofString]
  rw [htext, shellWords?_nextLine, shellWords?_bare_iff isBareWord_data,
    shellWords?_single_iff ht]

/-- The headers are read one after the other, and what is behind them is read on its own. -/
theorem reads_headers_iff (hs : List (Text × Text)) (ht : IsApart t) :
    shellWords? ((hs.flatMap fun h => nextLine ++ headerOption h) ++ t)
        = some ((hs.flatMap fun h => [ofString "-H", headerLine h]) ++ ws) ↔
      (∀ h ∈ hs, IsQuotable (headerLine h)) ∧ shellWords? t = some ws := by
  induction hs with
  | nil => simp
  | cons h hs ih =>
      have hrest : IsApart ((hs.flatMap fun h => nextLine ++ headerOption h) ++ t) := by
        cases hs with
        | nil => exact ht
        | cons k hs =>
            rw [List.flatMap_cons, List.append_assoc, List.append_assoc]
            exact isApart_nextLine _
      rw [List.flatMap_cons, List.append_assoc, List.flatMap_cons, List.append_assoc,
        List.forall_mem_cons, and_assoc, ← ih]
      exact reads_headerOption_iff hrest

/-- The lines behind the first are read as their words exactly if each header and the body are.
The induction is on the headers. -/
theorem Command.reads_options_iff (c : Command) :
    shellWords? c.options = some c.optionWords ↔
      (∀ h ∈ c.headers, IsQuotable (headerLine h)) ∧ ∀ text ∈ c.body, .char '\'' ∉ text := by
  have hempty : IsApart [] := nofun
  have hnil : shellWords? [] = some [] := rfl
  rw [options, optionWords]
  cases c.body with
  | none =>
      rw [Option.toList_none, List.flatMap_nil, List.flatMap_nil, reads_headers_iff _ hempty]
      simp [hnil]
  | some text =>
      have hbody : shellWords? (nextLine ++ bodyOption text) = some [ofString "-d", text] ↔
          .char '\'' ∉ text ∧ shellWords? [] = some [] := by
        rw [← reads_bodyOption_iff hempty, List.append_nil]
      rw [Option.toList_some, List.flatMap_singleton, List.flatMap_singleton,
        reads_headers_iff _ (isApart_nextLine _), hbody]
      simp [hnil]

/-! ### The method -/

/-- Characters that are neither blanks nor lost. -/
def isMark (c : CodePoint) : Bool := isKept c && !isGap c

/-- What quotes is no mark, as it may be lost. -/
theorem not_isMark_of_isQuoting {c : CodePoint} (h : isQuoting c = true) : isMark c = false := by
  rw [isMark, isKept, h]
  rfl

/-- Nor is a blank. -/
theorem not_isMark_of_isGap {c : CodePoint} (h : isGap c = true) : isMark c = false := by
  rw [isMark, h, Bool.not_true, Bool.and_false]

/-- A word does not end where a line does, if it does not end before that. -/
theorem not_run_nextLine {front blanks out : Text} (hne : blanks ≠ [])
    (hstart : blanks <+: nextLine) :
    run .plain (front ++ .char '"' :: blanks) ≠ some (.plain, out) := by
  intro h
  rw [run_append] at h
  obtain ⟨⟨mode, _⟩, -, h⟩ := Option.bind_eq_some_iff.mp h
  obtain ⟨⟨last, _⟩, hrun, heq⟩ := Option.map_eq_some_iff.mp h
  obtain rfl : last = .plain := (Prod.mk.inj heq).1
  obtain ⟨behind, _, rest, hemit, hrest, -⟩ := run_cons_eq_some_iff.mp hrun
  have hbehind : behind ∈ [Mode.plain, .single, .double] := by
    cases emits_of_emit hemit with
    | bare hc | double hc | doubleEscaped hc => exact absurd hc (by decide)
    | beginDouble | escaped | single | endDouble | unescaped => decide
  -- The blanks between lines lead out of no quotes, and outside of quotes they are not in a word.
  have hall : ∀ mode ∈ [Mode.plain, .single, .double], ∀ n ∈ [1, 2, 3, 4, 5, 6, 7],
      (run mode (nextLine.take n)).map (·.1) ≠ some .plain := by
    decide
  have hlength : blanks.length ∈ [1, 2, 3, 4, 5, 6, 7] := by
    have hpos := List.length_pos_of_ne_nil hne
    have hle : blanks.length ≤ 7 := hstart.length_le
    simp only [List.mem_cons, List.not_mem_nil, or_false]
    omega
  have hnot := hall behind hbehind blanks.length hlength
  rw [← List.prefix_iff_eq_take.mp hstart, hrest] at hnot
  exact hnot rfl

/-- The first line of a sample, from the method on. -/
def callText (m address : Text) : Text := m ++ .char ' ' :: .char '"' :: (address ++ [.char '"'])

section

variable {m address rest front source behind between source' behind' : Text}

/-- What is passed over in front of a command has no marks. -/
theorem countP_eq_zero_of_blanks (h : ∀ c ∈ front, isGap c = true ∨ c = '\\' ∨ c = '\n') :
    front.countP isMark = 0 := by
  rw [List.countP_eq_zero]
  intro c hc
  rw [Bool.not_eq_true]
  obtain hgap | rfl | rfl := h c hc
  · exact not_isMark_of_isGap hgap
  · rfl
  · rfl

/-- The line has no marks but the ones of its parts. -/
theorem countP_isMark_callText (m address : Text) :
    (callText m address).countP isMark = m.countP isMark + address.countP isMark := by
  have hquote : [CodePoint.char '"'].countP isMark = 0 := by decide
  rw [callText, List.countP_append, List.countP_cons_of_neg (by decide),
    List.countP_cons_of_neg (by decide), List.countP_append, hquote, Nat.add_zero]

/-- The line has one blank between its parts. -/
theorem countP_isGap_callText (m address : Text) :
    (callText m address).countP isGap = m.countP isGap + (address.countP isGap + 1) := by
  have hquote : [CodePoint.char '"'].countP isGap = 0 := by decide
  rw [callText, List.countP_append, List.countP_cons_of_pos rfl,
    List.countP_cons_of_neg (by decide), List.countP_append, hquote, Nat.add_zero]

/-- What stands behind the line and has no marks is a part of the blanks in front of the
next one. -/
theorem isPrefix_nextLine {more behind rest : Text} (hnone : more.countP isMark = 0)
    (h : nextLine ++ .char '-' :: rest = more ++ behind) : more <+: nextLine := by
  obtain ⟨extra, hextra, hdash⟩ | ⟨extra, hextra, -⟩ := List.append_eq_append_iff.mp h
  · cases extra with
    | nil => exact ⟨[], by rw [hextra, List.append_nil, List.append_nil]⟩
    | cons c extra =>
        obtain ⟨rfl, -⟩ := List.cons.inj hdash
        rw [hextra, List.countP_append, List.countP_cons_of_pos (by decide)] at hnone
        omega
  · exact ⟨extra, hextra.symm⟩

/-- The two words are read from their own line. -/
theorem exists_callText_eq (haddress : ∃ c ∈ address, isMark c = true)
    (h₁ : FirstWord (callText m address ++ (nextLine ++ .char '-' :: rest)) m front source behind)
    (h₂ : FirstWord behind address between source' behind') :
    ∃ left, callText m address = front ++ (source ++ (between ++ (source' ++ left))) := by
  have hmarks : source.countP isMark = m.countP isMark ∧
      source'.countP isMark = address.countP isMark :=
    ⟨(countP_of_run (fun _ => not_isMark_of_isQuoting) h₁.run).symm,
      (countP_of_run (fun _ => not_isMark_of_isQuoting) h₂.run).symm⟩
  have hfront := countP_eq_zero_of_blanks h₁.blanks
  have hbetween := countP_eq_zero_of_blanks h₂.blanks
  have hpos : 0 < address.countP isMark := List.countP_pos_iff.mpr haddress
  have htext : callText m address ++ (nextLine ++ .char '-' :: rest)
      = (front ++ (source ++ between)) ++ source' ++ behind' := by
    rw [h₁.text_eq, h₂.text_eq]
    simp only [List.append_assoc]
  -- The second word ends in the first line, or `more` of what is read stands behind that line.
  obtain ⟨more, hmore, htail⟩ | ⟨left, hleft, -⟩ := List.append_eq_append_iff.mp htext
  swap
  · exact ⟨left, by rw [hleft]; simp only [List.append_assoc]⟩
  by_cases hnil : more = []
  · rw [hnil, List.append_nil] at hmore
    exact ⟨[], by rw [← hmore]; simp only [List.append_assoc, List.append_nil]⟩
  exfalso
  -- All the marks are in the first line, so only blanks are left for the second word.
  have hnone : more.countP isMark = 0 := by
    have hcount := congrArg (List.countP isMark) hmore
    simp only [List.countP_append, countP_isMark_callText] at hcount
    omega
  have hstart := isPrefix_nextLine hnone htail
  obtain ⟨extra, -, hextra⟩ | ⟨own, hown, hsource⟩ := List.append_eq_append_iff.mp hmore.symm
  · rw [hextra, List.countP_append] at hnone
    omega
  · obtain rfl | ⟨inside, last, rfl⟩ := List.eq_nil_or_concat' own
    · rw [hsource, List.nil_append] at hmarks
      omega
    · have hlast : '"' = last := by
        have hends : callText m address
            = m ++ .char ' ' :: .char '"' :: address ++ [.char '"'] := by
          simp [callText]
        rw [hends, ← List.append_assoc] at hown
        exact (List.cons.inj (List.append_inj_right' hown rfl)).1
      have hrun := h₂.run
      rw [hsource, ← hlast, List.append_assoc] at hrun
      exact not_run_nextLine hnil hstart hrun

/-- A piece in front of a blank that is as long as what stands there, and as far as it goes without
the blank, is all of it. -/
theorem eq_of_blank_between {left more : Text} (hlength : m.length ≤ source.length)
    (hgaps : front.countP isGap + source.countP isGap ≤ m.countP isGap)
    (h : m ++ .char ' ' :: more = front ++ (source ++ left)) : source = m := by
  rw [← List.append_assoc] at h
  -- If the piece ends first, the blank behind it counts among those in front of what is left.
  obtain ⟨extra, hextra, hrest⟩ | ⟨extra, hextra, -⟩ := List.append_eq_append_iff.mp h
  · cases extra with
    | nil =>
        rw [List.append_nil] at hextra
        have hlengths := congrArg List.length hextra
        rw [List.length_append] at hlengths
        obtain rfl : front = [] := List.eq_nil_of_length_eq_zero (by omega)
        exact hextra
    | cons c extra =>
        obtain ⟨rfl, -⟩ := List.cons.inj hrest
        have hcount := congrArg (List.countP isGap) hextra
        rw [List.countP_append, List.countP_append, List.countP_cons_of_pos rfl] at hcount
        omega
  · have hlengths := congrArg List.length hextra
    rw [List.length_append, List.length_append] at hlengths
    obtain rfl : front = [] := List.eq_nil_of_length_eq_zero (by omega)
    obtain rfl : extra = [] := List.eq_nil_of_length_eq_zero (by omega)
    rw [hextra, List.nil_append, List.append_nil]

/-- If the two words are read from their own line, then blanks stand nowhere else than they should,
and the method has no quotes. -/
theorem isBareWord_of_callText (h₁ : FirstWord (callText m address ++ rest) m front source behind)
    (h₂ : FirstWord behind address between source' behind') {left : Text}
    (hcall : callText m address = front ++ (source ++ (between ++ (source' ++ left)))) :
    IsBareWord m := by
  have hquoting : ∀ c, isQuoting c = true → isGap c = false := by
    intro c hc
    rw [← Bool.not_eq_true]
    intro hgap
    rw [not_isQuoting_of_isGap hgap] at hc
    exact nomatch hc
  have hsource := countP_of_run hquoting h₁.run
  have hsource' := countP_of_run hquoting h₂.run
  -- The first word ends in front of a blank, and the second does not begin with one.
  have hbetween : 0 < between.countP isGap := by
    cases between with
    | nil =>
        obtain ⟨c, cs, rfl, -⟩ := h₂.begins
        obtain ⟨_, _, _, hemit, -⟩ := run_cons_eq_some_iff.mp h₂.run
        have hgap : isGap c = true := h₁.apart c (by rw [h₂.text_eq]; rfl)
        rw [not_isGap_of_emit hemit] at hgap
        exact nomatch hgap
    | cons b between =>
        have hgap : isGap b = true := h₁.apart b (by rw [h₂.text_eq]; rfl)
        rw [List.countP_cons_of_pos hgap]
        omega
  have hgaps := congrArg (List.countP isGap) hcall
  rw [countP_isGap_callText] at hgaps
  simp only [List.countP_append] at hgaps
  -- The one blank of the line is between the words, so the method begins with its source.
  have hlength : m.length ≤ source.length := by
    simpa [Mode.cost] using length_of_run h₁.run
  have heq : source = m := by
    rw [callText] at hcall
    exact eq_of_blank_between hlength (by omega) hcall
  exact ⟨heq ▸ h₁.begins, run_plain_iff.mp (heq ▸ h₁.run)⟩

end

/-! ### The whole command -/

/-- A command is read from its text if and only if each part may stand where it does. -/
theorem Command.reads_iff (c : Command) (haddress : ∃ d ∈ c.address, isMark d = true)
    (hheaders : c.headers ≠ []) : shellWords? c.source = some c.words ↔ c.IsReadable := by
  obtain ⟨h, hs, hcons⟩ := List.exists_cons_of_ne_nil hheaders
  have hoptions : ∃ rest, c.options = nextLine ++ .char '-' :: rest := by
    rw [options, hcons, List.flatMap_cons, List.append_assoc, List.append_assoc]
    exact ⟨_, rfl⟩
  obtain ⟨rest, hrest⟩ := hoptions
  have hapart : IsApart c.options := hrest ▸ isApart_nextLine _
  have hstart : shellWords? c.source = some c.words ↔
      shellWords? (callText c.method c.address ++ c.options)
        = some (c.method :: c.address :: c.optionWords) := by
    have htext : c.source = ofString "curl" ++ .char ' ' :: (ofString "-X" ++ .char ' ' ::
        (callText c.method c.address ++ c.options)) := by
      simp [source, callText, ofString]
    rw [htext, words, shellWords?_bare_iff isBareWord_curl, shellWords?_bare_iff isBareWord_request]
  -- Once the method is a word by itself, everything behind it is in quotes.
  have hcall : IsBareWord c.method → (shellWords? (callText c.method c.address ++ c.options)
        = some (c.method :: c.address :: c.optionWords) ↔
      IsQuotable c.address ∧ shellWords? c.options = some c.optionWords) := by
    intro hmethod
    have htext : callText c.method c.address ++ c.options = c.method ++ .char ' ' ::
        .char '"' :: (c.address ++ .char '"' :: c.options) := by
      simp [callText]
    rw [htext, shellWords?_bare_iff hmethod, shellWords?_double_iff hapart]
  rw [hstart]
  constructor
  · intro h
    have hmethod : IsBareWord c.method := by
      rw [hrest] at h
      obtain ⟨_, _, _, h₁, hbehind⟩ := exists_firstWord h
      obtain ⟨_, _, _, h₂, -⟩ := exists_firstWord hbehind
      obtain ⟨left, hleft⟩ := exists_callText_eq haddress h₁ h₂
      exact isBareWord_of_callText h₁ h₂ hleft
    obtain ⟨hquotable, hread⟩ := (hcall hmethod).mp h
    obtain ⟨hall, hbody⟩ := c.reads_options_iff.mp hread
    exact ⟨hmethod, hquotable, hall, hbody⟩
  · intro h
    exact (hcall h.method).mpr ⟨h.address, c.reads_options_iff.mpr ⟨h.headers, h.body⟩⟩

/-- The address of a sample is never blank, and a sample always has headers. -/
theorem reads_of_command {baseUrl : Text} {e : Endpoint} {c : Command}
    (h : command baseUrl e = .ok c) : shellWords? c.source = some c.words ↔ c.IsReadable := by
  obtain ⟨address, haddress, h⟩ := exists_of_bind_eq_ok h
  obtain ⟨pairs, -, h⟩ := exists_of_bind_eq_ok h
  obtain ⟨asked, -, h⟩ := exists_of_bind_eq_ok h
  obtain ⟨m, -, h⟩ := exists_of_bind_eq_ok h
  obtain ⟨data, h⟩ := exists_of_optional_eq_ok h
  obtain ⟨filled, -, haddress⟩ := exists_of_bind_eq_ok haddress
  -- There is a slash between the base and the path.
  have hslash : .char '/' ∈ address := by
    rw [← Except.ok.inj haddress]
    simp [ofString]
  have hheaders : headers e ≠ [] := by
    obtain ⟨kept, added, hsplit, hkeys, -⟩ := Entries.exists_insertAll_eq_append
      [(ofString "Content-Type", ofString "application/json"), ("Accept", "application/json")]
      e.headers
    intro hnil
    rw [headers, hsplit] at hnil
    rw [(List.append_eq_nil_iff.mp hnil).1] at hkeys
    cases hkeys
  rw [← Except.ok.inj h]
  exact Command.reads_iff _ ⟨_, List.mem_append_left _ hslash, rfl⟩ hheaders

/-- An endpoint whose values have a text has a sample, and a shell reads the sample as the call of
the endpoint if and only if the method needs no quotes, the address and each header may stand
between double quotes, and the body has no apostrophe. Another endpoint has no sample. -/
theorem bash_reads_iff (baseUrl : Text) (e : Endpoint) :
    (∃ c source, command baseUrl e = .ok c ∧ bash baseUrl e = .ok source ∧
      (shellWords? source = some c.words ↔ c.IsReadable)) ∨
    ∃ f, command baseUrl e = .error f ∧ bash baseUrl e = .error f := by
  rw [bash_eq_map_source]
  cases h : command baseUrl e with
  | ok c => exact .inl ⟨c, c.source, rfl, rfl, reads_of_command h⟩
  | error f => exact .inr ⟨f, rfl, rfl⟩

/-- An endpoint with one text in its body and one header. -/
def noteEndpoint (text header : Text) : Endpoint :=
  { Document.bareEndpoint "notes" "create" "notes" ["POST"] with
    bodyParameters := [("note", { name := "note", value := .str text })]
    headers := [("X-Note", header)] }

/-- The call of that endpoint. -/
def noteCommand (text header : Text) : Command where
  method := "POST"
  address := "http://localhost/notes"
  headers :=
    [("Content-Type", "application/json"), ("Accept", "application/json"), ("X-Note", header)]
  body := some text

/-- The sample of an endpoint is not read as the call of the endpoint. -/
def IsMisread (e : Endpoint) (c : Command) : Prop :=
  command "http://localhost" e = .ok c ∧
    ∃ source, bash "http://localhost" e = .ok source ∧ shellWords? source ≠ some c.words

/-- A command with a part that may not stand where it does is misread. -/
theorem isMisread_of_not_isReadable {e : Endpoint} {c : Command}
    (h : command "http://localhost" e = .ok c) (hc : ¬ c.IsReadable) : IsMisread e c := by
  refine ⟨h, c.source, ?_, fun hread => hc ((reads_of_command h).mp hread)⟩
  rw [bash_eq_map_source, h]
  rfl

/-- A body with an apostrophe is no word any more. In a header a shell finds an expansion, or a
backslash that it takes away. -/
theorem isMisread_noteCommand :
    IsMisread (noteEndpoint "it's" "") (noteCommand "\x7b\"note\": \"it's\"\x7d" "") ∧
    IsMisread (noteEndpoint "" "$HOME") (noteCommand "\x7b\"note\": \"\"\x7d" "$HOME") ∧
    IsMisread (noteEndpoint "" "\\\\share") (noteCommand "\x7b\"note\": \"\"\x7d" "\\\\share") := by
  have hheader : ∀ header text, ¬ IsQuotable (headerLine (ofString "X-Note", header)) →
      ¬ (noteCommand text header).IsReadable := by
    intro header text hnot h
    exact hnot (h.headers _ (List.mem_of_getElem? (i := 2) rfl))
  refine ⟨isMisread_of_not_isReadable rfl ?_, isMisread_of_not_isReadable rfl ?_,
    isMisread_of_not_isReadable rfl ?_⟩
  · intro h
    exact absurd (h.body _ rfl) (by decide)
  · exact hheader _ _ (by decide)
  · exact hheader _ _ (by decide)

end RouteDocs.CodeSample
