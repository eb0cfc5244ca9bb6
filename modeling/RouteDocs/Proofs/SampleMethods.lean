import RouteDocs.Proofs.DocumentPaths
import RouteDocs.Proofs.JsonReading
import RouteDocs.Proofs.ParameterText
import RouteDocs.Proofs.PathTree

/-!
# `RouteDocs.Proofs.SampleMethods`: the method that a sample calls

A sample is made from an endpoint, and an endpoint may answer several methods. Each of its
operations shows the same samples, so no sample can know which operation it stands under:
all of them call the first method of the endpoint. `assemble_samples` says so for every
operation of a document. An endpoint whose methods share one key is called by that key.

What a sample calls is read from its text alone (`calledMethod?`), the way the language
would: a word of the shell after `curl -X`, and a literal in the call of a script.
-/

set_option autoImplicit false

namespace RouteDocs.CodeSample

open Text

/-! ### Reading a sample -/

/-- Characters that mean something to a shell. -/
def shellMarks : Text := "|&;()<>$`\\\"'*?[]#~!\x7b\x7d"

/-- Whether a shell takes a character as it is, and as part of a word. -/
def isWordPart (c : CodePoint) : Bool :=
  0x20 < c.toNat && c.toNat != 0x7f && !shellMarks.contains c

/-- The text is one word of a shell, which stands for itself. -/
def IsShellWord (s : Text) : Prop := s ≠ [] ∧ ∀ c ∈ s, isWordPart c = true

/-- Whether a text is a word of a shell can be decided. -/
instance (s : Text) : Decidable (IsShellWord s) :=
  inferInstanceAs (Decidable (s ≠ [] ∧ ∀ c ∈ s, isWordPart c = true))

/-- The word that a command goes on with, if a space ends it. -/
def shellWord? (s : Text) : Option Text :=
  match s.takeWhile isWordPart, s.dropWhile isWordPart with
  | c :: cs, .char ' ' :: _ => some (c :: cs)
  | _, _ => none

/-- The code point that a part of a literal stands for. -/
def pointOfPart : Json.StringPart → CodePoint
  | .plain c => c
  | .unit n => CodePoint.ofNat n

/-- The text of the literal that a line goes on with. A script takes every escape for itself:
nothing joins two surrogates. -/
def literal? : Text → Option Text
  | .char '"' :: rest =>
    match Json.stringParts [] rest with
    | .ok (parts, _) => some (parts.map pointOfPart)
    | .error _ => none
  | _ => none

/-- The literal in the last line of a script that starts with `opening`. -/
def lastCall? (opening source : Text) : Option Text :=
  (splitOn "\n" source).reverse.findSome? fun line => dropStart? opening line >>= literal?

/-- How the call in a script starts. -/
def pythonCall : Text := "response = requests.request("

/-- How the call in a piece of JavaScript starts. -/
def javascriptCall : Text := "fetch(url, \x7bmethod: "

/-- The method that a sample calls, read from its text. -/
def calledMethod? : Language → Text → Option Text
  | .bash, source => dropStart? "curl -X " source >>= shellWord?
  | .python, source => lastCall? pythonCall source
  | .javascript, source => lastCall? javascriptCall source

/-- The sample calls the method. A shell has to be able to take it as a word, and a script gets
its UTF-16 units, which are the method itself in the basic plane. -/
def Calls (source method : Text) : Language → Prop
  | .bash => IsShellWord method → calledMethod? .bash source = some method
  | .python => calledMethod? .python source = some method.asUnits
  | .javascript => calledMethod? .javascript source = some method.asUnits

/-- A word in front of a space is read up to there. -/
theorem shellWord?_append {m : Text} (h : IsShellWord m) (rest : Text) :
    shellWord? (m ++ .char ' ' :: rest) = some m := by
  have hspace : isWordPart (.char ' ') = false := by decide
  have htake : (m ++ .char ' ' :: rest).takeWhile isWordPart = m := by
    rw [List.takeWhile_append_of_pos h.2, List.takeWhile_cons_of_neg (by simp [hspace]),
      List.append_nil]
  have hdrop : (m ++ .char ' ' :: rest).dropWhile isWordPart = .char ' ' :: rest := by
    rw [List.dropWhile_append_of_pos h.2, List.dropWhile_cons_of_neg (by simp [hspace])]
  obtain ⟨c, cs, rfl⟩ := List.exists_cons_of_ne_nil h.1
  rw [shellWord?, htake, hdrop]
  rfl

/-- What is written for a code point is read as its units. -/
theorem exists_parts_units (c : CodePoint) : ∃ parts,
    (∀ rest, rest ≠ [] → Json.stringParts [] (Json.charText c ++ rest)
      = Json.before parts (Json.stringParts [] rest)) ∧ parts.map pointOfPart = c.asUnits := by
  have hwritten := Json.written_charText c
  generalize Json.charText c = t at hwritten
  -- By the three ways in which a character is written.
  cases hwritten with
  | escape letter _ hcode hshort =>
      refine ⟨[.plain c], fun rest _ => Json.stringParts_escape [] hshort rest, ?_⟩
      rw [CodePoint.asUnits_of_lt (Yaml.escapeCode?_lt hcode)]
      rfl
  | itself hprint hquote hslash =>
      refine ⟨[.plain c], fun rest _ => Json.stringParts_itself [] hprint hquote hslash rest, ?_⟩
      have hlt : c.toNat < 0x10000 := Nat.lt_of_le_of_lt (Nat.le_of_lt hprint.2) (by decide)
      rw [CodePoint.asUnits_of_lt hlt]
      rfl
  | units =>
      refine ⟨(units16 c).map .unit,
        fun rest hne => Json.stringParts_units [] _ (fun u => Yaml.units16_lt) hne, ?_⟩
      rw [List.map_map]
      rfl

/-- What is written of a text is read in parts that are its units. -/
theorem exists_stringParts_flatMap (s rest : Text) :
    ∃ parts, Json.stringParts [] (s.flatMap Json.charText ++ .char '"' :: rest)
      = .ok (parts, rest) ∧ parts.map pointOfPart = s.asUnits := by
  induction s with
  | nil => exact ⟨[], Json.stringParts.eq_2 [] rest, rfl⟩
  | cons c s ih =>
      obtain ⟨others, hread, hothers⟩ := ih
      obtain ⟨parts, hparts, hunits⟩ := exists_parts_units c
      refine ⟨parts ++ others, ?_, ?_⟩
      · rw [List.flatMap_cons, List.append_assoc, hparts _ (by simp), hread]
        rfl
      · rw [List.map_append, hunits, hothers, Text.asUnits_cons]

/-- A string, as JSON writes it, is read back in units, whatever follows. -/
theorem literal?_stringText (s rest : Text) :
    literal? (Json.stringText s ++ rest) = some s.asUnits := by
  obtain ⟨parts, hread, hunits⟩ := exists_stringParts_flatMap s rest
  rw [Json.stringText_append, literal?, hread, ← hunits]

/-! ### The lines of a script -/

/-- The lines of two parts of a script, with a line feed between the parts. -/
theorem unlines_append {ls ms : List Text} (hls : ls ≠ []) (hms : ms ≠ []) :
    unlines (ls ++ ms) = unlines ls ++ .char '\n' :: unlines ms := by
  induction ls with
  | nil => exact absurd rfl hls
  | cons l ls ih =>
      cases ls with
      | nil =>
          obtain ⟨m, ms, rfl⟩ := List.exists_cons_of_ne_nil hms
          simp [unlines, ofString]
      | cons k ls =>
          have hrest := ih (by simp)
          simp only [unlines, List.cons_append, List.intercalate_cons_cons] at hrest ⊢
          rw [hrest, List.append_assoc, List.append_assoc, List.append_assoc]

/-- A literal stays on one line. -/
theorem newline_not_mem_stringText (s : Text) : .char '\n' ∉ Json.stringText s := by
  have hquote : .char '\n' ∉ ofString "\"" := by decide
  have hchars : .char '\n' ∉ s.flatMap Json.charText := by
    intro h
    obtain ⟨c, -, hc⟩ := List.mem_flatMap.mp h
    exact absurd (Yaml.isPrintable_of_mem_charText hc) (by decide)
  simp only [Json.stringText, List.mem_append, not_or]
  exact ⟨⟨hquote, hchars⟩, hquote⟩

/-- The call is found if no line after it looks like one. -/
theorem lastCall?_unlines (opening m : Text) {rest : Text} (earlier later : List Text)
    (hearlier : earlier ≠ []) (hlater : later ≠ []) (hopening : .char '\n' ∉ opening)
    (hrest : .char '\n' ∉ rest) (hnone : lastCall? opening (unlines later) = none) :
    lastCall? opening (unlines (earlier ++ (opening ++ Json.stringText m ++ rest) :: later))
      = some m.asUnits := by
  have hline : .char '\n' ∉ opening ++ Json.stringText m ++ rest := by
    simp only [List.mem_append, not_or]
    exact ⟨⟨hopening, newline_not_mem_stringText m⟩, hrest⟩
  -- The call has no line feed, so it is one line among the others.
  have hlines : splitOn "\n" (unlines (earlier ++ (opening ++ Json.stringText m ++ rest) :: later))
      = splitOn "\n" (unlines earlier) ++ (opening ++ Json.stringText m ++ rest) ::
          splitOn "\n" (unlines later) := by
    have hcall : unlines ((opening ++ Json.stringText m ++ rest) :: later)
        = (opening ++ Json.stringText m ++ rest) ++ .char '\n' :: unlines later := by
      rw [← List.singleton_append, unlines_append (by simp) hlater, unlines,
        List.intercalate_singleton]
    rw [unlines_append hearlier (by simp), hcall]
    exact (splitOn_append (.char '\n') _ _).trans
      (congrArg (_ ++ ·) (splitOn_append_cons hline _))
  rw [lastCall?] at hnone
  rw [lastCall?, hlines, List.reverse_append, List.findSome?_append, List.reverse_cons,
    List.findSome?_append, hnone, Option.none_or, List.findSome?_singleton, List.append_assoc,
    Tag.dropStart?_append]
  show (literal? (Json.stringText m ++ rest)).or _ = _
  rw [literal?_stringText, Option.some_or]

/-! ### What is written into a sample -/

/-- An endpoint with a method is called by its first one. -/
theorem method_eq_ok_iff {e : Endpoint} {m : Text} :
    method e = .ok m ↔ ∃ others, e.methods = m :: others := by
  rw [method]
  cases e.methods with
  | nil => simp
  | cons first others => simp

/-- A part that only some samples have does not matter for what comes after it. -/
theorem exists_of_optional_eq_ok {α β : Type} {p : Prop} [Decidable p] {x y : Except Fault α}
    {next : α → Except Fault β} {b : β}
    (h : (if p then x >>= next else y >>= next) = .ok b) : ∃ a, next a = .ok b := by
  split at h
  all_goals
    obtain ⟨a, -, h⟩ := exists_of_bind_eq_ok h
    exact ⟨a, h⟩

variable {baseUrl source : Text} {e : Endpoint}

/-- A command calls by the first method, behind its option. -/
theorem calls_bash (h : bash baseUrl e = .ok source) :
    ∃ m, method e = .ok m ∧ Calls source m .bash := by
  obtain ⟨address, -, h⟩ := exists_of_bind_eq_ok h
  obtain ⟨pairs, -, h⟩ := exists_of_bind_eq_ok h
  obtain ⟨asked, -, h⟩ := exists_of_bind_eq_ok h
  obtain ⟨m, hm, h⟩ := exists_of_bind_eq_ok h
  obtain ⟨data, h⟩ := exists_of_optional_eq_ok h
  refine ⟨m, hm, fun hword => ?_⟩
  have hstart : ∃ rest, source = ofString "curl -X " ++ (m ++ .char ' ' :: rest) := by
    rw [← Except.ok.inj h]
    generalize (headers e).map _ = options
    -- The address follows the method, on the same line.
    cases hothers : options ++ data with
    | nil => exact ⟨_, by simp [hothers, ofString]; rfl⟩
    | cons next others => exact ⟨_, by simp [hothers, ofString, List.intercalate_cons_cons]; rfl⟩
  obtain ⟨rest, rfl⟩ := hstart
  rw [calledMethod?, Tag.dropStart?_append]
  exact shellWord?_append hword rest

/-- A script calls by the first method, in its last statement. -/
theorem calls_python (h : python baseUrl e = .ok source) :
    ∃ m, method e = .ok m ∧ Calls source m .python := by
  obtain ⟨address, -, h⟩ := exists_of_bind_eq_ok h
  obtain ⟨quoted, -, h⟩ := exists_of_bind_eq_ok h
  obtain ⟨params, h⟩ := exists_of_optional_eq_ok h
  obtain ⟨payload, h⟩ := exists_of_optional_eq_ok h
  obtain ⟨sent, -, h⟩ := exists_of_bind_eq_ok h
  obtain ⟨m, hm, h⟩ := exists_of_bind_eq_ok h
  refine ⟨m, hm, ?_⟩
  have hargs : .char '\n' ∉ ofString ", url, headers=headers" ++
      (if params.isEmpty then [] else ofString ", params=params") ++
      (if payload.isEmpty then [] else ofString ", json=payload") ++ ofString ")" := by
    cases params.isEmpty <;> cases payload.isEmpty <;> decide
  have hcall := lastCall?_unlines pythonCall m
    ([ofString "import requests", "", "url = " ++ quoted] ++ params ++ payload ++
      [ofString "headers = " ++ sent])
    [ofString "print(response.json())"] (by simp) (by simp) (by decide) hargs (by decide)
  rw [Calls, calledMethod?, ← hcall, ← Except.ok.inj h]
  simp only [pythonCall, List.append_assoc, List.cons_append, List.nil_append]

/-- So does the script of the browser, among the options of the call. -/
theorem calls_javascript (h : javascript baseUrl e = .ok source) :
    ∃ m, method e = .ok m ∧ Calls source m .javascript := by
  obtain ⟨address, -, h⟩ := exists_of_bind_eq_ok h
  obtain ⟨quoted, -, h⟩ := exists_of_bind_eq_ok h
  obtain ⟨params, h⟩ := exists_of_optional_eq_ok h
  obtain ⟨sent, -, h⟩ := exists_of_bind_eq_ok h
  obtain ⟨m, hm, h⟩ := exists_of_bind_eq_ok h
  obtain ⟨literal, hliteral, h⟩ := exists_of_bind_eq_ok h
  obtain rfl : Json.stringText m = literal := Except.ok.inj hliteral
  obtain ⟨data, h⟩ := exists_of_optional_eq_ok h
  refine ⟨m, hm, ?_⟩
  -- What stands behind the method is one line, whether a body is sent or not.
  have hargs : .char '\n' ∉ ofString ", headers: headers" ++
      (if data.isEmpty then [] else ofString ", body: JSON.stringify(body)") ++
      ofString "\x7d)" := by
    cases data.isEmpty <;> decide
  have hcall := lastCall?_unlines javascriptCall m
    ((ofString "const url = new URL(" ++ quoted ++ ");") :: params ++
      (ofString "let headers = " ++ sent ++ ";") :: data ++ [ofString ""])
    [ofString "    .then(response => response.json())", "    .then(json => console.log(json));"]
    (by simp) (by simp) (by decide) hargs (by decide)
  rw [Calls, calledMethod?, ← hcall, ← Except.ok.inj h]
  simp only [javascriptCall, List.append_assoc, List.cons_append, List.nil_append]

/-- Whatever the language, a sample calls the first method. -/
theorem calls_render {language : Language} (h : render language baseUrl e = .ok source) :
    ∃ m, method e = .ok m ∧ Calls source m language :=
  match language with
  | .bash => calls_bash h
  | .python => calls_python h
  | .javascript => calls_javascript h

end RouteDocs.CodeSample

namespace RouteDocs.Document

open Text CodeSample

/-! ### The samples of an operation -/

/-- An entry of an operation's samples, in a language under its display name, that calls the
method. -/
def ShowsCall (method : Text) (tab : Text × Language) (entry : Value) : Prop :=
  ∃ source, entry = .object [("lang", .str tab.1), ("source", .str source)] ∧
    Calls source method tab.2

/-- There is a sample for each language, and it calls the first method. -/
theorem showsCall_of_samples {baseUrl : Text} {languages : List (Text × Language)} {e : Endpoint}
    {shown : Value} (h : samples (.ofLanguages baseUrl languages) e = .ok shown) {first : Text}
    {others : List Text} (hms : e.methods = first :: others) :
    ∃ entries, shown = .list entries ∧ List.Forall₂ (ShowsCall first) languages entries := by
  obtain ⟨entries, hentries, h⟩ := exists_of_bind_eq_ok h
  have hall := List.forall₂_map_left_iff.mp (forall₂_of_mapM_eq_ok hentries)
  refine ⟨entries, (Except.ok.inj h).symm, hall.imp ?_⟩
  intro tab entry hentry
  obtain ⟨source, hsource, rfl⟩ := exists_of_map_eq_ok hentry
  obtain ⟨m, hm, hcalls⟩ := calls_render hsource
  rw [method_eq_ok_iff.mpr ⟨others, hms⟩] at hm
  obtain rfl := Except.ok.inj hm
  exact ⟨source, rfl, hcalls⟩

/-- Under every path and method of a document stands an operation of the last endpoint that has
both, and its samples call the first method of this endpoint, each in its language. So they call
the method that the operation is for, if the endpoint has one or all its methods have one key. -/
theorem assemble_samples {settings : Settings} {baseUrl : Text}
    {languages : List (Text × Language)} {es : List Endpoint} {doc : Value}
    (hdoc : assemble settings (.ofLanguages baseUrl languages) es [] = .ok doc)
    {path method : Text} {op : Value} (hop : OperationAt doc path method op) :
    ∃ e first others entries,
      ((grouped es).filter (Answers path method)).getLast? = some e ∧
      e.methods = first :: others ∧
      op.get? "x-code-samples" = some (.list entries) ∧
      List.Forall₂ (ShowsCall first) languages entries ∧
      ((∀ m ∈ others, methodKey m = methodKey first) → methodKey first = method) := by
  obtain ⟨e, earlier, m, later, hlast, hms, hkey, -, hbuilt, -⟩ :=
    isLastOperation_of_assemble hdoc hop
  obtain ⟨first, others, hfirst⟩ : ∃ first others, e.methods = first :: others :=
    List.exists_cons_of_ne_nil (by simp [hms])
  obtain ⟨shown, hshown, hget⟩ := exists_samples_of_operation hbuilt
  obtain ⟨entries, rfl, hentries⟩ := showsCall_of_samples hshown hfirst
  refine ⟨e, first, others, entries, hlast, hfirst, hget, hentries, fun hone => ?_⟩
  have hmem : m ∈ first :: others := by simp [← hfirst, hms]
  rcases List.mem_cons.mp hmem with rfl | hmem
  · exact hkey
  · rw [← hone m hmem, hkey]

/-- All languages. -/
def everyTab : List (Text × Language) :=
  [("Bash", .bash), ("Python", .python), ("Javascript", .javascript)]

/-- Samples in all languages. -/
def everyPlan : Plan := .ofLanguages "http://localhost" everyTab

/-- An endpoint with two methods. -/
def updateEndpoint : Endpoint := bareEndpoint "users" "update" "users" ["PUT", "PATCH"]

/-- An endpoint with two methods: under the second one the samples call by the first, in all three
languages. -/
theorem assemble_samples_updateEndpoint : ∃ doc op,
    (assemble {} everyPlan [updateEndpoint] [] = .ok doc ∧ OperationAt doc "/users" "patch" op) ∧
      ∃ e first others entries,
        ((grouped [updateEndpoint]).filter (Answers "/users" "patch")).getLast? = some e ∧
        e.methods = first :: others ∧
        op.get? "x-code-samples" = some (.list entries) ∧
        List.Forall₂ (ShowsCall first) everyTab entries ∧
        ((∀ m ∈ others, methodKey m = methodKey first) → methodKey first = "patch") := by
  obtain ⟨doc, op, hdoc, hop⟩ : ∃ doc op, assemble {} everyPlan [updateEndpoint] [] = .ok doc ∧
      OperationAt doc "/users" "patch" op := ⟨_, _, rfl, _, _, rfl, rfl, rfl⟩
  exact ⟨doc, op, ⟨hdoc, hop⟩, assemble_samples hdoc hop⟩

/-- The samples of an operation call the method that it is for. -/
def CallsItself (languages : List (Text × Language)) (method : Text) (op : Value) : Prop :=
  ∃ entries, op.get? "x-code-samples" = some (.list entries) ∧
    List.Forall₂ (fun (tab : Text × Language) entry => ∃ source called,
      entry = Value.object [("lang", .str tab.1), ("source", .str source)] ∧
      calledMethod? tab.2 source = some called ∧ methodKey called = method) languages entries

/-- An operation whose only sample calls by another method does not call itself. -/
theorem not_callsItself {tab : Text × Language} {method source : Text} {op : Value}
    (called : Text)
    (hop : op.get? "x-code-samples"
      = some (.list [.object [("lang", .str tab.1), ("source", .str source)]]))
    (hcalled : calledMethod? tab.2 source = some called) (hne : methodKey called ≠ method) :
    ¬ CallsItself [tab] method op := by
  rintro ⟨entries, hentries, hall⟩
  rw [hop] at hentries
  obtain rfl := Value.list.inj (Option.some.inj hentries)
  obtain ⟨⟨source', called', hentry, hcalled', hkey⟩, -⟩ := List.forall₂_cons.mp hall
  have hsource : source = source' := by
    simpa [Value.object] using hentry
  rw [← hsource, hcalled] at hcalled'
  obtain rfl := Option.some.inj hcalled'
  exact hne hkey

/-- In the document of one endpoint with these methods, shown in one language, the operation for
`method` has a sample that calls another. -/
def Misleads (language : Language) (methods : List Text) (method : Text) : Prop :=
  ∃ doc op, assemble {} (.ofLanguages "http://localhost" [("Sample", language)])
      [bareEndpoint "users" "update" "users" methods] [] = .ok doc ∧
    OperationAt doc "/users" method op ∧
    ¬ CallsItself [("Sample", language)] method op

/-- The first method is called where the second is meant, a shell takes one word of two, and a
script gets two surrogates for a letter beyond the basic plane. -/
theorem misleads_otherMethod :
    Misleads .bash ["PUT", "PATCH"] "patch" ∧ Misleads .bash ["LIST ALL"] "list all" ∧
      Misleads .python ["𐐀"] "𐐨" := by
  refine ⟨⟨_, _, rfl, ⟨_, _, rfl, rfl, rfl⟩, ?_⟩, ⟨_, _, rfl, ⟨_, _, rfl, rfl, rfl⟩, ?_⟩,
    ⟨_, _, rfl, ⟨_, _, rfl, rfl, rfl⟩, ?_⟩⟩
  · exact not_callsItself "PUT" rfl (by decide) (by decide)
  · exact not_callsItself "LIST" rfl (by decide) (by decide)
  · exact not_callsItself (asUnits "𐐀") rfl (by decide) (by decide)

end RouteDocs.Document
