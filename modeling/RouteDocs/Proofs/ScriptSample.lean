import RouteDocs.Proofs.SampleMethods
import RouteDocs.Proofs.ScriptLiterals

/-!
# `RouteDocs.Proofs.ScriptSample`: the literals of a Python sample

A Python sample gives names to the address, the query, the body and the headers of a call, and then
makes the call (`python_eq`). Each of its lines is a statement by itself, except that a long literal
takes several lines, and this gives the statements of the sample (`exists_statements?_python`). So
what a name is given is read as what becomes of the value (`literal?_python`).

`python_literals` is the result. The names of a sample are given literals of the values that they
stand for, as long as these have no null, no truth value and no text beyond the basic plane. With
one of these they are not (`not_literal_bodyEndpoint`).
-/

set_option autoImplicit false

namespace RouteDocs.Script

open Text

/-! ### Statements -/

/-- A line that is a statement of these tokens, whatever comes after it. -/
structure IsStatement (line : Text) (ts : List Token) : Prop where
  /-- The tokens and the end of the statement come in front of the ones of the rest. -/
  run : ∀ rest, tokensFrom? .lineStart 0 (line ++ .char '\n' :: rest)
    = (tokensFrom? .lineStart 0 rest).map (ts ++ .newline :: ·)
  /-- No other statement ends inside. -/
  line : .newline ∉ ts

/-- A line is a statement if it has tokens of its own and none of them breaks it. -/
theorem IsStatement.of_run? {line : Text} {ts : List Token}
    (h : run? .lineStart 0 (line ++ [.char '\n']) = some (ts ++ [.newline], .lineStart, 0))
    (hline : .newline ∉ ts) : IsStatement line ts where
  run := by
    intro rest
    have hrun := tokensFrom?_of_run? h rest
    rw [List.append_assoc, List.singleton_append] at hrun
    rw [hrun]
    simp
  line := hline

/-- A name that a statement may give a value to. -/
def IsVariable (name : Text) : Prop :=
  run? .lineStart 0 (name ++ " = ") = some ([.name name, .mark .equals], .between, 0)

/-- A name, an equals sign and a literal are a statement. -/
theorem isStatement_assignment {name t : Text} {ts : List Token} (hname : IsVariable name)
    (h : Lexes t ts) : IsStatement (name ++ " = " ++ t) (.name name :: .mark .equals :: ts) where
  run := by
    intro rest
    have hbreak : emit? .between 0 (.char '\n') = some ([.newline], .lineStart, 0) := rfl
    rw [List.append_assoc, tokensFrom?_of_run? hname,
      h.run 0 _ ⟨.char '\n', rest, rfl, by decide, by decide⟩, tokensFrom?_of_emit?_token hbreak,
      Option.map_map, Option.map_map]
    simp [Function.comp_def]
  line := by simpa using h.line

/-- A line that is a statement is the first of those that are read. -/
theorem IsStatement.statements? {line : Text} {ts : List Token} (h : IsStatement line ts)
    (rest : Text) :
    statements? (line ++ .char '\n' :: rest) = (statements? rest).map (ts :: ·) := by
  have hnone : ∀ t ∈ ts, decide (t = .newline) = false := by
    intro t ht
    apply decide_eq_false
    rintro rfl
    exact h.line ht
  rw [Script.statements?, Script.statements?, tokens?, tokens?, h.run, Option.map_map,
    Option.map_map]
  congr 1
  funext us
  exact splitWhere_append hnone (decide_eq_true rfl) us

/-- The statements of a script, if each of its lines is one. -/
theorem statements?_unlines {lines : List Text} {tss : List (List Token)}
    (h : List.Forall₂ IsStatement lines tss) {last : Text} {ss : List (List Token)}
    (hlast : statements? last = some ss) :
    statements? (unlines (lines ++ [last])) = some (tss ++ ss) := by
  induction h with
  | nil =>
      rw [List.nil_append, unlines, List.intercalate_singleton]
      exact hlast
  | @cons line ts lines tss hline _ ih =>
      have htext : unlines ((line :: lines) ++ [last])
          = line ++ .char '\n' :: unlines (lines ++ [last]) := by
        rw [List.cons_append, ← List.singleton_append,
          CodeSample.unlines_append (by simp) (by simp), unlines, List.intercalate_singleton]
      rw [htext, hline.statements?, ih]
      rfl

/-- A statement that gives a name what a value becomes. -/
def Assigns (s : Text × Value) (ts : List Token) : Prop :=
  ∃ us, ts = .name s.1 :: .mark .equals :: us ∧ Reads us (reread? s.2)

/-- The statement of a name is found, as no other one has the same name. -/
theorem exists_of_assigns {named : List (Text × Value)} {tss : List (List Token)}
    (h : List.Forall₂ Assigns named tss) (hnames : (named.map Prod.fst).Nodup)
    {s : Text × Value} (hs : s ∈ named) (others : List (List Token)) :
    ∃ us, (tss ++ others).findSome? (assigned? s.1) = some us ∧ Reads us (reread? s.2) := by
  induction h with
  | nil => cases hs
  | @cons first ts named tss hfirst _ ih =>
      obtain ⟨us, rfl, hread⟩ := hfirst
      rw [List.map_cons, List.nodup_cons] at hnames
      rw [List.cons_append, List.findSome?_cons, assigned?]
      rcases List.mem_cons.mp hs with rfl | hs
      · exact ⟨us, by rw [if_pos rfl], hread⟩
      · have hne : first.1 ≠ s.1 := fun heq => hnames.1 (heq ▸ List.mem_map_of_mem hs)
        rw [if_neg hne]
        exact ih hnames.2 hs

end RouteDocs.Script

namespace RouteDocs.CodeSample

open Text

/-! ### The script of an endpoint -/

/-- The values that a script shows, under the names that it gives them. -/
def shown (e : Endpoint) (address : Text) : List (Text × Value) :=
  let params : List (Text × Value) :=
    if (query e).isEmpty then [] else [("params", .ofFields (query e))]
  let payload : List (Text × Value) :=
    if (body e).isEmpty then [] else [("payload", .ofFields (body e))]
  ("url", .str address) :: (params ++ payload ++ [(ofString "headers", headerValue e)])

/-- A statement that gives a name its value. -/
def assignment (s : Text × Value) : Except Fault Text :=
  (json scriptLayout s.2).map fun text => s.1 ++ " = " ++ text

/-- The arguments of the call at the end of a script, behind the method. -/
def callEnd (e : Endpoint) : Text :=
  let withParams : Text := if (query e).isEmpty then [] else ", params=params"
  let withPayload : Text := if (body e).isEmpty then [] else ", json=payload"
  ", url, headers=headers" ++ withParams ++ withPayload ++ ")"

/-- The call at the end of a script. -/
def scriptCall (e : Endpoint) (m : Text) : Text :=
  "response = requests.request(" ++ Json.stringText m ++ callEnd e

/-- A script assigns the values one after the other, and uses them in its call. -/
theorem python_eq (baseUrl : Text) (e : Endpoint) : python baseUrl e = (do
    let address ← url baseUrl e
    let assignments ← (shown e address).mapM assignment
    let m ← method e
    .ok (unlines ((ofString "import requests" :: [] :: assignments ++ [scriptCall e m]) ++
      [ofString "print(response.json())"]))) := by
  rw [python]
  cases url baseUrl e with
  | error f => rfl
  | ok address =>
      have hstr : ∀ s, json scriptLayout (.str s) = .ok (Json.stringText s) := fun _ => rfl
      have hcall : ∀ m, scriptCall e m = ofString "response = requests.request(" ++
          Json.stringText m ++ ofString ", url, headers=headers" ++
            (if (query e).isEmpty then [] else ofString ", params=params") ++
            (if (body e).isEmpty then [] else ofString ", json=payload") ++ ofString ")" := by
        intro m
        simp only [scriptCall, callEnd, List.append_assoc]
      simp only [shown, hcall, hstr]
      -- The query and the body may be missing, and then their lines and arguments are, too.
      by_cases hquery : (query e).isEmpty = true
      · by_cases hbody : (body e).isEmpty = true
        · simp only [if_pos hquery, if_pos hbody, List.nil_append, List.mapM_cons, List.mapM_nil,
            assignment, hstr]
          cases json scriptLayout (headerValue e) <;> cases method e <;> rfl
        · simp only [if_pos hquery, if_neg hbody, List.nil_append, List.cons_append, List.mapM_cons,
            List.mapM_nil, assignment, hstr]
          cases json scriptLayout (.ofFields (body e)) <;>
          cases json scriptLayout (headerValue e) <;> cases method e <;> rfl
      · by_cases hbody : (body e).isEmpty = true
        · simp only [if_neg hquery, if_pos hbody, List.nil_append, List.cons_append, List.mapM_cons,
            List.mapM_nil, assignment, hstr]
          cases json scriptLayout (.ofFields (query e)) <;>
          cases json scriptLayout (headerValue e) <;> cases method e <;> rfl
        · simp only [if_neg hquery, if_neg hbody, List.nil_append, List.cons_append, List.mapM_cons,
            List.mapM_nil, assignment, hstr]
          cases json scriptLayout (.ofFields (query e)) <;>
          cases json scriptLayout (.ofFields (body e)) <;>
          cases json scriptLayout (headerValue e) <;> cases method e <;> rfl

/-! ### The literals of a script -/

section Literals

open Script

/-- The tokens of the arguments behind the method. -/
def callEndTokens (e : Endpoint) : List Token :=
  let withParams : List Token :=
    if (query e).isEmpty then []
    else [.mark .comma, .name "params", .mark .equals, .name "params"]
  let withPayload : List Token :=
    if (body e).isEmpty then []
    else [.mark .comma, .name "json", .mark .equals, .name "payload"]
  [.mark .comma, .name "url", .mark .comma, .name "headers", .mark .equals, .name "headers"] ++
    withParams ++ withPayload ++ [.mark .closeRound]

/-- The tokens of the call. -/
def callTokens (e : Endpoint) (m : Text) : List Token :=
  [.name "response", .mark .equals, .name "requests.request", .mark .openRound, .str m.asUnits] ++
    callEndTokens e

/-- The call at the end of a script is a statement, whatever the method. -/
theorem isStatement_scriptCall (e : Endpoint) (m : Text) :
    IsStatement (scriptCall e m) (callTokens e m) where
  run := by
    intro rest
    have hstart : run? .lineStart 0 (ofString "response = requests.request(")
        = some ([.name "response", .mark .equals, .name "requests.request", .mark .openRound],
            .between, 1) := rfl
    -- Of the texts in the call only the method is free.
    have hstring : tokensFrom? .between 1 (Json.stringText m ++ (callEnd e ++ .char '\n' :: rest))
        = (tokensFrom? .between 1 (callEnd e ++ .char '\n' :: rest)).map (.str m.asUnits :: ·) :=
      (lexes_stringText m).run 1 _ ⟨.char ',', _, rfl, by decide, by decide⟩
    have hend : run? .between 1 (callEnd e ++ [.char '\n'])
        = some (callEndTokens e ++ [.newline], .lineStart, 0) := by
      rw [callEnd, callEndTokens]
      cases (query e).isEmpty <;> cases (body e).isEmpty <;> rfl
    have hrest := tokensFrom?_of_run? hend rest
    rw [List.append_assoc, List.singleton_append] at hrest
    rw [scriptCall, List.append_assoc, List.append_assoc, tokensFrom?_of_run? hstart, hstring,
      hrest, Option.map_map, Option.map_map, callTokens]
    simp [Function.comp_def]
  line := by
    rw [callTokens, callEndTokens]
    cases (query e).isEmpty <;> cases (body e).isEmpty <;> simp

variable {baseUrl : Text} {e : Endpoint} {address : Text}

/-- The names of a script, in order. Some may be missing. -/
theorem names_shown_sublist (e : Endpoint) (address : Text) :
    ((shown e address).map Prod.fst).Sublist [ofString "url", "params", "payload", "headers"] := by
  rw [shown]
  cases (query e).isEmpty <;> cases (body e).isEmpty <;> simp

/-- The names that a script gives its values may be given values: they are among four
fixed words. -/
theorem isVariable_of_mem_shown {s : Text × Value} (h : s ∈ shown e address) : IsVariable s.1 := by
  have hname := (names_shown_sublist e address).subset (List.mem_map_of_mem h)
  simp only [List.mem_cons, List.not_mem_nil, or_false] at hname
  rcases hname with h | h | h | h
  all_goals
    rw [h]
    rfl

/-- What writes leave stands under distinct names. -/
theorem nodup_names_ofList {α : Type} (es : List (Text × α)) :
    ((Entries.ofList es).map Prod.fst).Nodup := by
  rw [Entries.ofList_eq_gather]
  exact Entries.nodup_keys_gather Prod.fst _ es

/-- Values of parameters are a value of the same scalars. -/
theorem madeOf_values {ps : List (Text × Parameter)}
    (h : ∀ p ∈ ps, p.2.value.MadeOf Scalar.isExample) :
    (Value.ofFields (values ps)).MadeOf Scalar.isExample := by
  refine Value.madeOf_ofFields_iff.mpr ⟨nodup_names_ofList _, ?_⟩
  intro f hf
  have hmem : f ∈ ps.map fun p => (p.2.name, p.2.value) :=
    Entries.mem_of_get?_ofList ((Entries.mem_ofList_iff _ f.1 f.2).mp hf)
  obtain ⟨p, hp, rfl⟩ := List.mem_map.mp hmem
  exact ⟨rfl, h p hp⟩

/-- Headers are texts under texts, whatever the endpoint. -/
theorem madeOf_headerValue (e : Endpoint) : (headerValue e).MadeOf Scalar.isExample := by
  -- The two standard headers come first, and the ones of the endpoint are written over them.
  have hwrites : headers e = Entries.ofList
      ([(ofString "Content-Type", ofString "application/json"), ("Accept", "application/json")] ++
        e.headers) := by
    rw [Entries.ofList, Entries.insertAll_append]
    rfl
  refine Value.madeOf_ofFields_iff.mpr ⟨?_, ?_⟩
  · rw [List.map_map, hwrites]
    exact nodup_names_ofList _
  · intro f hf
    obtain ⟨h, -, rfl⟩ := List.mem_map.mp hf
    exact ⟨rfl, .scalar rfl⟩

/-- What a script shows is of the class of examples, if the values of the parameters are. -/
theorem madeOf_of_mem_shown (h : ∀ p ∈ e.parameters ++ e.bodyParameters,
      p.2.value.MadeOf Scalar.isExample) {s : Text × Value} (hs : s ∈ shown e address) :
    s.2.MadeOf Scalar.isExample := by
  simp only [shown, List.mem_cons, List.mem_append, List.not_mem_nil, or_false] at hs
  rcases hs with rfl | (hs | hs) | rfl
  · exact .scalar rfl
  · split at hs
    · cases hs
    · rw [List.mem_singleton.mp hs]
      apply madeOf_values
      intro p hp
      exact h p (List.mem_append_left _ (List.mem_of_mem_filter hp))
  · split at hs
    · cases hs
    · rw [List.mem_singleton.mp hs]
      apply madeOf_values
      intro p hp
      exact h p (List.mem_append_right _ hp)
  · exact madeOf_headerValue e

/-- Each assignment is a statement, with what its value becomes. -/
theorem exists_isStatement_assignments {named : List (Text × Value)} {lines : List Text}
    (hnames : ∀ s ∈ named, IsVariable s.1) (hvalues : ∀ s ∈ named, s.2.MadeOf Scalar.isExample)
    (h : List.Forall₂ (fun s line => assignment s = .ok line) named lines) :
    ∃ tss, List.Forall₂ IsStatement lines tss ∧ List.Forall₂ Assigns named tss := by
  induction h with
  | nil => exact ⟨[], .nil, .nil⟩
  | cons hline _ ih =>
      rw [List.forall_mem_cons] at hnames hvalues
      obtain ⟨text, htext, rfl⟩ := exists_of_map_eq_ok hline
      obtain ⟨ts, hlex, hread⟩ := hasLiteral_of_madeOf hvalues.1 0 text htext
      obtain ⟨tss, hlines, hassigns⟩ := ih hnames.2 hvalues.2
      exact ⟨_ :: tss, .cons (isStatement_assignment hnames.1 hlex) hlines,
        .cons ⟨ts, rfl, hread⟩ hassigns⟩

/-- The statements of a script. -/
theorem exists_statements?_python {source : Text}
    (hvalues : ∀ p ∈ e.parameters ++ e.bodyParameters, p.2.value.MadeOf Scalar.isExample)
    (haddress : url baseUrl e = .ok address) (h : python baseUrl e = .ok source) :
    ∃ m tss, method e = .ok m ∧ List.Forall₂ Assigns (shown e address) tss ∧
      statements? source = some ([.name "import", .name "requests"] :: [] ::
        (tss ++ [callTokens e m, [.name "print", .mark .openRound, .name "response.json",
          .mark .openRound, .mark .closeRound, .mark .closeRound]])) := by
  rw [python_eq, haddress] at h
  obtain ⟨lines, hlines, h⟩ := exists_of_bind_eq_ok (x := (shown e address).mapM assignment) h
  obtain ⟨m, hm, h⟩ := exists_of_bind_eq_ok h
  obtain rfl := Except.ok.inj h
  obtain ⟨tss, hstatements, hassigns⟩ := exists_isStatement_assignments
    (fun s => isVariable_of_mem_shown) (fun s => madeOf_of_mem_shown hvalues)
    (forall₂_of_mapM_eq_ok hlines)
  -- The lines in front of the assignments and behind the call are those of every script.
  have himport : IsStatement (ofString "import requests") [.name "import", .name "requests"] :=
    .of_run? rfl (by simp)
  have hempty : IsStatement [] [] := .of_run? rfl (by simp)
  have hprint : statements? (ofString "print(response.json())")
      = some [[.name "print", .mark .openRound, .name "response.json", .mark .openRound,
          .mark .closeRound, .mark .closeRound]] := rfl
  have hall : List.Forall₂ IsStatement (lines ++ [scriptCall e m]) (tss ++ [callTokens e m]) :=
    List.rel_append hstatements (.cons (isStatement_scriptCall e m) .nil)
  refine ⟨m, tss, hm, hassigns, ?_⟩
  have hscript := statements?_unlines (.cons himport (.cons hempty hall)) hprint
  simp only [List.cons_append, List.append_assoc, List.nil_append] at hscript ⊢
  exact hscript

/-- A script gives each name what its value becomes. -/
theorem literal?_python {source : Text}
    (hvalues : ∀ p ∈ e.parameters ++ e.bodyParameters, p.2.value.MadeOf Scalar.isExample)
    (haddress : url baseUrl e = .ok address) (h : python baseUrl e = .ok source)
    {s : Text × Value} (hs : s ∈ shown e address) :
    Script.literal? s.1 source = reread? s.2 := by
  obtain ⟨m, tss, -, hassigns, hstatements⟩ := exists_statements?_python hvalues haddress h
  have hnames : ((shown e address).map Prod.fst).Nodup :=
    (names_shown_sublist e address).nodup (by decide)
  -- The import and the empty line give nothing a value, so the search goes on behind them.
  obtain ⟨us, hfound, hread⟩ := exists_of_assigns hassigns hnames hs _
  rw [Script.literal?, hstatements, Option.bind_some, List.findSome?_cons, List.findSome?_cons]
  simp only [assigned?]
  rw [hfound, Option.bind_some]
  exact hread.evaluate?

/-- An endpoint with a method has a script, unless its address or one of its values has no text. -/
theorem exists_python_or_fault (baseUrl : Text) {e : Endpoint} (hmethods : e.methods ≠ []) :
    (∃ address source, url baseUrl e = .ok address ∧ python baseUrl e = .ok source) ∨
    ∃ f, python baseUrl e = .error f ∧ (url baseUrl e = .error f ∨
      ∃ address, url baseUrl e = .ok address ∧
        ∃ s ∈ shown e address, json scriptLayout s.2 = .error f) := by
  obtain ⟨m, others, hm⟩ := List.exists_cons_of_ne_nil hmethods
  rw [python_eq, method_eq_ok_iff.mpr ⟨others, hm⟩]
  cases url baseUrl e with
  | error f => exact .inr ⟨f, rfl, .inl rfl⟩
  | ok address =>
      cases hlines : (shown e address).mapM assignment with
      | ok lines =>
          refine .inl ⟨address, ?_⟩
          show ∃ source, _ ∧ ((shown e address).mapM assignment >>= _) = .ok source
          rw [hlines]
          exact ⟨_, rfl, rfl⟩
      | error f =>
          -- The first value without a text is what goes wrong.
          obtain ⟨before, s, after, hshown, -, hs⟩ := mapM_eq_error_iff.mp hlines
          refine .inr ⟨f, ?_, .inr ⟨address, rfl, s, by simp [hshown], ?_⟩⟩
          · show (shown e address).mapM assignment >>= _ = _
            rw [hlines]
            rfl
          · rw [assignment] at hs
            cases htext : json scriptLayout s.2 with
            | ok text =>
                rw [htext] at hs
                cases hs
            | error g =>
                rw [htext] at hs
                exact congrArg Except.error (Except.error.inj hs)

/-- An endpoint with a method has a script, unless its address or one of its values has no text.
Each name of the script is given a literal of the value that it stands for if and only if the value
has no null and no truth value in it, and no text beyond the basic plane. -/
theorem python_literals {baseUrl : Text} {e : Endpoint} (hmethods : e.methods ≠ [])
    (hvalues : ∀ p ∈ e.parameters ++ e.bodyParameters, p.2.value.MadeOf Scalar.isExample) :
    (∃ address source, url baseUrl e = .ok address ∧ python baseUrl e = .ok source ∧
      ∀ s ∈ shown e address,
        (Script.literal? s.1 source = some s.2 ↔ s.2.MadeOf Scalar.isPortable)) ∨
    ∃ f, python baseUrl e = .error f ∧ (url baseUrl e = .error f ∨
      ∃ address, url baseUrl e = .ok address ∧
        ∃ s ∈ shown e address, json scriptLayout s.2 = .error f) := by
  refine (exists_python_or_fault baseUrl hmethods).imp_left ?_
  rintro ⟨address, source, haddress, hsource⟩
  refine ⟨address, source, haddress, hsource, ?_⟩
  intro s hs
  rw [literal?_python hvalues haddress hsource hs]
  exact reread?_eq_self_iff (madeOf_of_mem_shown hvalues hs)

end Literals

/-- An endpoint with one value in its body. -/
def bodyEndpoint (name : Text) (v : Value) : Endpoint :=
  { Document.bareEndpoint "notes" "create" "notes" ["POST"] with
    bodyParameters := [(name, { name := name, value := v })] }

/-- The address of that endpoint. -/
def notesUrl : Text := "http://localhost/notes"

section Example

variable (name : Text) (v : Value)

/-- The address of the endpoint. -/
theorem url_bodyEndpoint : url "http://localhost" (bodyEndpoint name v) = .ok notesUrl := rfl

/-- Its script shows the address, the body and the headers. -/
theorem shown_bodyEndpoint : shown (bodyEndpoint name v) notesUrl
    = [(ofString "url", .str notesUrl), (ofString "payload", .ofFields [(name, v)]),
        (ofString "headers", headerValue (bodyEndpoint name v))] := rfl

/-- The body is among them. -/
theorem mem_shown_bodyEndpoint :
    (ofString "payload", Value.ofFields [(name, v)]) ∈ shown (bodyEndpoint name v) notesUrl := by
  rw [shown_bodyEndpoint]
  exact .tail _ (.head _)

variable {v} in
/-- The only parameter of the endpoint has the value that was given. -/
theorem madeOf_of_mem_bodyEndpoint (hv : v.MadeOf Scalar.isExample) :
    ∀ p ∈ (bodyEndpoint name v).parameters ++ (bodyEndpoint name v).bodyParameters,
      p.2.value.MadeOf Scalar.isExample := by
  intro p hp
  rw [List.mem_singleton.mp hp]
  exact hv

/-- There is a script if the payload has a text. -/
theorem exists_python_bodyEndpoint {t : Text}
    (h : json scriptLayout (.ofFields [(name, v)]) = .ok t) :
    ∃ source, python "http://localhost" (bodyEndpoint name v) = .ok source := by
  have hpayload : assignment (ofString "payload", .ofFields [(name, v)])
      = .ok (ofString "payload" ++ ofString " = " ++ t) := by
    rw [assignment, h]
    rfl
  rw [python_eq, url_bodyEndpoint]
  show ∃ source, ((shown (bodyEndpoint name v) notesUrl).mapM assignment >>= _) = .ok source
  rw [shown_bodyEndpoint, List.mapM_cons, List.mapM_cons, hpayload]
  exact ⟨_, rfl⟩

end Example

/-- A list of numbers and texts. -/
def idList : Value := .list [.str "all", .int (-7)]

/-- The list is of every class that has its two elements. -/
theorem madeOf_idList {p : Scalar → Bool} (hstr : p (.str "all") = true)
    (hint : p (.int (-7)) = true) : idList.MadeOf p := by
  simp [idList, Value.madeOf_list_iff, Value.madeOf_scalar_iff, hstr, hint]

/-- A number and a text in the basic plane are literals of themselves. -/
theorem python_literals_idList : (bodyEndpoint "ids" idList).methods ≠ [] ∧
    ∃ source, python "http://localhost" (bodyEndpoint "ids" idList) = .ok source ∧
      Script.literal? "payload" source = some (.ofFields [("ids", idList)]) := by
  have hpayload : (Value.ofFields [("ids", idList)]).MadeOf Scalar.isPortable := by
    refine Value.madeOf_ofFields_iff.mpr ⟨by simp, ?_⟩
    intro f hf
    rw [List.mem_singleton.mp hf]
    exact ⟨by decide, madeOf_idList (by decide) rfl⟩
  obtain ⟨t, ht⟩ : ∃ t, json scriptLayout (.ofFields [("ids", idList)]) = .ok t := by
    have htree : Json.IsJsonTree (.ofFields [("ids", idList)]) :=
      .map (.cons (isPlain_ofString _) (by simp) (.list (.cons (.str (isPlain_ofString _))
        (.cons (.int (by decide)) .nil))) .nil)
    exact (Json.exists_write_iff scriptLayout htree (by decide)).mpr (by decide)
  refine ⟨by decide, ?_⟩
  obtain ⟨address, source, haddress, hsource, hread⟩ | ⟨f, hfault, -⟩ :=
    @python_literals "http://localhost" (bodyEndpoint "ids" idList) (by decide)
      (madeOf_of_mem_bodyEndpoint "ids" (madeOf_idList rfl rfl))
  · obtain rfl : notesUrl = address := Except.ok.inj haddress
    exact ⟨source, hsource, (hread _ (mem_shown_bodyEndpoint "ids" idList)).mpr hpayload⟩
  · obtain ⟨source, hsource⟩ := exists_python_bodyEndpoint _ _ ht
    rw [hsource] at hfault
    cases hfault

/-- A script has no literal of a truth value, and the literal of a text beyond the basic plane is
another text. -/
theorem not_literal_bodyEndpoint :
    (∃ source, python "http://localhost" (bodyEndpoint "active" (.bool true)) = .ok source ∧
      Script.literal? "payload" source = none) ∧
    ∃ source, python "http://localhost" (bodyEndpoint "note" (.str [.ofNat 0x1f600])) = .ok source ∧
      Script.literal? "payload" source
        = some (.ofFields [("note", .str [.ofNat 0xd83d, .ofNat 0xde00])]) := by
  have hread : ∀ {name : Text} {x : Scalar} {source : Text}, x.isExample = true →
      python "http://localhost" (bodyEndpoint name (.scalar x)) = .ok source →
      Script.literal? "payload" source = Script.reread? (.ofFields [(name, .scalar x)]) := by
    intro name x source hx hsource
    exact literal?_python (madeOf_of_mem_bodyEndpoint name (.scalar hx)) (url_bodyEndpoint _ _)
      hsource (mem_shown_bodyEndpoint name (.scalar x))
  constructor
  · obtain ⟨source, hsource⟩ := exists_python_bodyEndpoint "active" (.bool true) rfl
    exact ⟨source, hsource, hread rfl hsource⟩
  · obtain ⟨source, hsource⟩ := exists_python_bodyEndpoint "note" (.str [.ofNat 0x1f600]) rfl
    exact ⟨source, hsource, hread rfl hsource⟩

end RouteDocs.CodeSample
