import RouteDocs.Proofs.ErrorBoundary
import RouteDocs.Proofs.PathVariables
import RouteDocs.Proofs.SampleMethods

/-!
# `RouteDocs.Proofs.PathResolution`: variables, arguments and addresses

Every variable of a path has to name an argument of the handler. Documenting a route is meant
to fail by the leftmost variable that names none, before any tag is looked at. But the values
of the variables to the left are made up on the way, and a date may have no value: then the
route fails by a fault instead (`not_resolves_archiveRoute`).

`resolves_iff` says that nothing else is in the way. On a clock whose month is partly out of
the calendar, a variable of type `date` must not come before the leftmost one without an
argument; on every other clock that one is always reported.

Where a route is documented, each of its samples shows the path with the variables filled in.
`IsFilled` says what that is, by the same reading of the path as `IsVariable`: text is kept as
it is, and what stands for a variable is not read again. The path is read twice, with its
slashes in front and without, and the two readings have the same variables.
-/

set_option autoImplicit false

namespace RouteDocs

open Text

/-! ### The leftmost variable -/

namespace Template

/-- The name is that of the leftmost variable of the template that the property holds of. -/
inductive LeftmostVariable (p : Text → Bool) (name : Text) : Text → Prop where
  /-- The template starts with the variable. -/
  | here {source : Text} (h : IsPlaceholder name source) (hp : p name = true) (rest : Text) :
      LeftmostVariable p name (source ++ rest)
  /-- The variable comes after another one, without the property. -/
  | after {other source rest : Text} (h : IsPlaceholder other source) (hp : p other = false)
      (hrest : LeftmostVariable p name rest) : LeftmostVariable p name (source ++ rest)
  /-- The variable comes after a character that starts none. -/
  | skip {c : CodePoint} {cs : Text} (h : StartsNone (c :: cs))
      (hrest : LeftmostVariable p name cs) : LeftmostVariable p name (c :: cs)

/-- The leftmost variable with a property is the first such name in the list of names. -/
theorem leftmostVariable_iff (p : Text → Bool) (name template : Text) :
    LeftmostVariable p name template ↔ (variableNames template).find? p = some name := by
  constructor
  · intro h
    induction h with
    | here h hp rest => rw [variableNames_append h, List.find?_cons_of_pos hp]
    | after h hp _ ih => rw [variableNames_append h, List.find?_cons_of_neg (by simp [hp]), ih]
    | skip h _ ih => rw [variableNames_cons ((variableAt?_eq_none_iff _).mpr h), ih]
  -- The list of names comes from a reading of the template from left to right.
  · induction template using reading_induction with
    | nil =>
        intro h
        cases h
    | placeholder other source rest hplace ih =>
        intro h
        rw [variableNames_append hplace, List.find?_cons] at h
        split at h
        · rename_i hp
          obtain rfl := Option.some.inj h
          exact .here hplace hp rest
        · rename_i hp
          exact .after hplace hp (ih h)
    | char c cs hnone ih =>
        intro h
        rw [variableNames_cons ((variableAt?_eq_none_iff _).mpr hnone)] at h
        exact .skip hnone (ih h)

/-- There is a leftmost variable with a property if there is a variable with it. -/
theorem exists_leftmostVariable_iff (p : Text → Bool) (template : Text) :
    (∃ name, LeftmostVariable p name template) ↔
      ∃ name, IsVariable name template ∧ p name = true := by
  simp only [leftmostVariable_iff, ← mem_variableNames_iff]
  rw [← Option.isSome_iff_exists, List.find?_isSome]

/-! ### Filling in -/

/-- The text is the template with each variable replaced by the value of the parameter of its
name, and with every other character as it is. -/
inductive IsFilled (parameters : List (Text × Parameter)) : Text → Text → Prop where
  /-- Nothing is left. -/
  | nil : IsFilled parameters [] []
  /-- A variable. -/
  | variable {name source shown rest filled : Text} {p : Parameter}
      (h : IsPlaceholder name source) (hp : Entries.get? name parameters = some p)
      (hshown : p.value.display = .ok shown) (hrest : IsFilled parameters rest filled) :
      IsFilled parameters (source ++ rest) (shown ++ filled)
  /-- A character that starts no variable. -/
  | char {c : CodePoint} {cs filled : Text} (h : StartsNone (c :: cs))
      (hrest : IsFilled parameters cs filled) : IsFilled parameters (c :: cs) (c :: filled)

section

variable {value? : Text → Except Fault (Option Text)} {filled : Text}

/-- Filling a template that starts with a variable: the value of the variable, or its source if it
has none, and the rest filled. -/
theorem exists_of_fill_append {name source : Text} (h : IsPlaceholder name source) {rest : Text}
    (hfill : fill value? (source ++ rest) = .ok filled) :
    ∃ found others, value? name = .ok found ∧ fill value? rest = .ok others ∧
      filled = found.getD source ++ others := by
  obtain ⟨parts, hparts, hfill⟩ := exists_of_bind_eq_ok hfill
  obtain rfl := Except.ok.inj hfill
  rw [pieces_append h, List.mapM_cons] at hparts
  obtain ⟨shown, hshown, hparts⟩ := exists_of_bind_eq_ok hparts
  obtain ⟨others, hothers, hparts⟩ := exists_of_bind_eq_ok hparts
  obtain rfl := Except.ok.inj hparts
  obtain ⟨found, hfound, rfl⟩ := exists_of_map_eq_ok hshown
  refine ⟨found, others.flatten, hfound, ?_, List.flatten_cons⟩
  rw [fill, hothers]
  rfl

/-- Where no variable starts, a character stays and the rest is filled. -/
theorem exists_of_fill_cons {c : CodePoint} {cs : Text} (h : StartsNone (c :: cs))
    (hfill : fill value? (c :: cs) = .ok filled) :
    ∃ others, fill value? cs = .ok others ∧ filled = c :: others := by
  obtain ⟨parts, hparts, hfill⟩ := exists_of_bind_eq_ok hfill
  obtain rfl := Except.ok.inj hfill
  rw [pieces_cons ((variableAt?_eq_none_iff _).mpr h), List.mapM_cons] at hparts
  obtain ⟨first, hfirst, hparts⟩ := exists_of_bind_eq_ok hparts
  obtain ⟨others, hothers, hparts⟩ := exists_of_bind_eq_ok hparts
  obtain rfl := Except.ok.inj hfirst
  obtain rfl := Except.ok.inj hparts
  refine ⟨others.flatten, ?_, rfl⟩
  rw [fill, hothers]
  rfl

/-- Where every variable has a parameter, a template is filled in as the grammar says. -/
theorem isFilled_of_fill {parameters : List (Text × Parameter)}
    (hvalue : ∀ name p, Entries.get? name parameters = some p →
      value? name = p.value.display.map some)
    {template : Text}
    (hnames : ∀ name ∈ variableNames template, ∃ p, Entries.get? name parameters = some p)
    (h : fill value? template = .ok filled) : IsFilled parameters template filled := by
  induction template using reading_induction generalizing filled with
  | nil =>
      obtain rfl := Except.ok.inj h
      exact .nil
  | placeholder name source rest hplace ih =>
      rw [variableNames_append hplace, List.forall_mem_cons] at hnames
      obtain ⟨p, hp⟩ := hnames.1
      obtain ⟨found, others, hfound, hothers, rfl⟩ := exists_of_fill_append hplace h
      rw [hvalue name p hp] at hfound
      obtain ⟨shown, hshown, rfl⟩ := exists_of_map_eq_ok hfound
      exact .variable hplace hp hshown (ih hnames.2 hothers)
  | char c cs hnone ih =>
      rw [variableNames_cons ((variableAt?_eq_none_iff _).mpr hnone)] at hnames
      obtain ⟨others, hothers, rfl⟩ := exists_of_fill_cons hnone h
      exact .char hnone (ih hnames hothers)

end

end Template

/-! ### Variables without an argument -/

namespace Route

/-- No argument of the handler has the name. -/
def lacksArgument (r : Route) (name : Text) : Bool := r.arguments.all fun a => a.name ≠ name

/-- The handler's argument of the name, which is the last one if there are several, has the type
`date`. -/
def isDated (r : Route) (name : Text) : Bool :=
  (r.arguments.filter (·.name = name)).getLast?.any fun a =>
    normalizeType (a.type.getD []) = CanonicalType.date.name

/-- The handler's arguments under their names. -/
def argumentsByName (r : Route) : List (Text × Argument) :=
  Entries.ofList (r.arguments.map fun a => (a.name, a))

/-- A name lacks an argument exactly if nothing is found under it. -/
theorem lacksArgument_iff (r : Route) (name : Text) :
    r.lacksArgument name = true ↔ Entries.get? name r.argumentsByName = none := by
  rw [argumentsByName, Endpoint.get?_arguments, List.getLast?_eq_none_iff, List.filter_eq_nil_iff,
    lacksArgument, List.all_eq_true]
  simp

/-- A name is dated exactly if the argument found under it has the type of a date. -/
theorem isDated_iff (r : Route) (name : Text) :
    r.isDated name = true ↔ ∃ a, Entries.get? name r.argumentsByName = some a ∧
      normalizeType (a.type.getD []) = CanonicalType.date.name := by
  rw [argumentsByName, Endpoint.get?_arguments, isDated, Option.any_eq_true]
  simp

/-- A name with an argument does not lack one. -/
theorem lacksArgument_of_get? {r : Route} {name : Text} {a : Argument}
    (h : Entries.get? name r.argumentsByName = some a) : r.lacksArgument name = false := by
  rw [Bool.eq_false_iff]
  intro hlacks
  rw [lacksArgument_iff, h] at hlacks
  cases hlacks

/-- A variable that documenting may stop at: it has no argument, or it is dated. -/
def isStop (r : Route) (name : Text) : Bool := r.lacksArgument name || r.isDated name

end Route

namespace Endpoint

open Synthesis

variable {σ : Type} [RandomSource σ] {now : Moment} {r : Route}

/-- Why the path parameters of a route are not made: the leftmost variable without an argument, or
a date before it that has no value. -/
inductive PathFailure (now : Moment) (r : Route) (names : List Text) : Error → Prop where
  /-- A variable without an argument. -/
  | unresolved {name : Text} (h : names.find? r.lacksArgument = some name) :
      PathFailure now r names (.unresolvedPathParameter name r.title)
  /-- A date. -/
  | date {name : Text} {f : Fault} (hmiss : now.Misses f)
      (h : names.find? r.isStop = some name) (hdated : r.isDated name = true) :
      PathFailure now r names (.fault f)

/-- The path parameters are made, and then every variable has an argument; or the leftmost variable
without one is reported, unless a date is in the way. -/
theorem pathParameters_fails (now : Moment) (r : Route) (names : List Text) :
    AlwaysEnds (fun _ => names.find? r.lacksArgument = none) (PathFailure now r names)
      (pathParameters now r.argumentsByName r.title names : Synth σ _) := by
  induction names with
  | nil => exact .pure rfl
  | cons name rest ih =>
      rw [pathParameters]
      split
      · rename_i hget
        refine .throw (.unresolved ?_)
        rw [List.find?_cons_of_pos ((Route.lacksArgument_iff r name).mpr hget)]
      · rename_i a hget
        have hhas := Route.lacksArgument_of_get? hget
        have hlacks : (name :: rest).find? r.lacksArgument = rest.find? r.lacksArgument :=
          List.find?_cons_of_neg (by simp [hhas])
        rw [hlacks]
        refine AlwaysEnds.bind (R := fun _ => True) ?_ fun p _ => ?_
        · refine (synthesized_fails now "path" name a.type).mono (fun _ h => h) ?_
          rintro e ⟨⟨f, rfl, hmiss⟩, htype⟩
          have hdated : r.isDated name = true := (Route.isDated_iff r name).mpr ⟨a, hget, htype⟩
          exact .date hmiss (List.find?_cons_of_pos (by simp [Route.isStop, hdated])) hdated
        · refine (ih.mono (fun _ h => h) ?_).bind fun ps h => .pure h
          intro e he
          cases he with
          | unresolved h => exact .unresolved (hlacks.trans h)
          | date hmiss h hdated =>
              -- The date that fails is this one, or one behind it.
              by_cases hthis : r.isDated name = true
              · exact .date hmiss (List.find?_cons_of_pos (by simp [Route.isStop, hthis])) hthis
              · refine .date hmiss ?_ hdated
                rw [List.find?_cons_of_neg (by simp [Route.isStop, hthis, hhas]), h]

/-- A route with tags is documented as its path variables let it. -/
theorem ofRoute_fails (defaultGroup : Text) (htags : r.tags ≠ []) :
    AlwaysEnds (fun _ => (Template.variableNames r.uri).find? r.lacksArgument = none)
      (fun e => PathFailure now r (Template.variableNames r.uri) e ∨
        ((Template.variableNames r.uri).find? r.lacksArgument = none ∧ MalformedOr (Cause now r) e))
      (ofRoute now defaultGroup r : Synth σ _) := by
  rw [ofRoute_eq now defaultGroup htags]
  refine ((pathParameters_fails now r _).mono (fun _ h => h) fun e h => .inl h).bind ?_
  intro path hnone
  exact (ofPathParameters_ends now defaultGroup r path).mono (fun _ _ => hnone)
    fun e h => .inr ⟨hnone, h⟩

/-- From a state that draws a second without a date, no parameter is made of a date. -/
theorem outcome_synthesized_of_drawn {s : σ} {f : Fault}
    (hmiss : now.drawn (drawnSeconds now s) = .error f) (location name : Text)
    {type : Option Text} (htype : normalizeType (type.getD []) = CanonicalType.date.name) :
    (synthesized now location name type).outcome s = .error (.fault f) := by
  rw [synthesized, htype]
  refine Synth.outcome_bind_error ?_ _
  rw [outcome_synthesize_date (by decide), dateOutcome, hmiss]
  rfl

/-- On a clock that is partly out of the calendar, the worst second makes none. -/
theorem outcome_synthesized_of_date (hclock : now.IsPartial) (location name : Text)
    {type : Option Text} (htype : normalizeType (type.getD []) = CanonicalType.date.name) :
    ∃ f, (synthesized now location name type : Synth (Pinned now.worstSecond) _).outcome ⟨⟩
      = .error (.fault f) := by
  obtain ⟨f, hf⟩ := hclock.exists_worstSecond
  refine ⟨f, outcome_synthesized_of_drawn ?_ location name htype⟩
  rw [drawnSeconds_pinned, Nat.min_eq_left now.worstSecond_le, hf]

/-- Every other parameter is made. -/
theorem exists_outcome_synthesized (now : Moment) (location name : Text) {type : Option Text}
    (htype : normalizeType (type.getD []) ≠ CanonicalType.date.name) (s : σ) :
    ∃ p, (synthesized now location name type : Synth σ _).outcome s = .ok p := by
  have hends := synthesized_fails (σ := σ) now location name type s
  cases hout : (synthesized now location name type : Synth σ _).outcome s with
  | error e =>
      rw [hout] at hends
      exact absurd hends.of_error.2 htype
  | ok p => exact ⟨p, rfl⟩

/-- In a trial, a date in front of all variables without an argument fails. -/
theorem outcome_pathParameters_of_date {names : List Text} (hclock : now.IsPartial) {name : Text}
    (hstop : names.find? r.isStop = some name) (hdated : r.isDated name = true) :
    ∃ f, (pathParameters now r.argumentsByName r.title names :
      Synth (Pinned now.worstSecond) _).outcome ⟨⟩ = .error (.fault f) := by
  induction names with
  | nil => cases hstop
  | cons first rest ih =>
      rw [pathParameters]
      rw [List.find?_cons] at hstop
      split
      · -- Without an argument this variable would be the first stop, and no date.
        rename_i hget
        have hlacks := (Route.lacksArgument_iff r first).mpr hget
        rw [Route.isStop, hlacks, Bool.true_or] at hstop
        obtain rfl := Option.some.inj hstop
        obtain ⟨a, ha, -⟩ := (Route.isDated_iff r first).mp hdated
        rw [hget] at ha
        cases ha
      -- With an argument it is a date itself, or it is passed and the rest decides.
      · rename_i a hget
        by_cases htype : normalizeType (a.type.getD []) = CanonicalType.date.name
        · obtain ⟨f, hf⟩ := outcome_synthesized_of_date hclock "path" first htype
          exact ⟨f, Synth.outcome_bind_error hf _⟩
        · obtain ⟨p, hp⟩ := exists_outcome_synthesized now "path" first htype
            (⟨⟩ : Pinned now.worstSecond)
          have hfirst : r.isDated first = false := by
            rw [Bool.eq_false_iff]
            intro hdate
            obtain ⟨b, hb, hbtype⟩ := (Route.isDated_iff r first).mp hdate
            rw [hget] at hb
            obtain rfl := Option.some.inj hb
            exact htype hbtype
          rw [Route.isStop, hfirst, Route.lacksArgument_of_get? hget] at hstop
          obtain ⟨f, hf⟩ := ih hstop
          exact ⟨f, (Synth.outcome_bind_ok hp _).trans (Synth.outcome_bind_error hf _)⟩

/-- Documenting the route fails by an unresolved path parameter exactly if a variable of its path
has no argument, and then by the leftmost such variable. What the tags say does not matter. -/
def Resolves (now : Moment) (r : Route) : Prop :=
  ∀ (σ : Type) [RandomSource σ] (s : σ) (defaultGroup : Text),
    ((∃ name handler, (ofRoute now defaultGroup r).outcome s
        = .error (.unresolvedPathParameter name handler))
      ↔ ∃ name, Template.IsVariable name r.uri ∧ r.lacksArgument name = true) ∧
    ∀ name handler, (ofRoute now defaultGroup r).outcome s
        = .error (.unresolvedPathParameter name handler) →
      Template.LeftmostVariable r.lacksArgument name r.uri ∧ handler = r.title

/-- The path has a variable without an argument, and a date comes before all of these. -/
def HasDateFirst (r : Route) : Prop :=
  (∃ name, Template.LeftmostVariable r.isStop name r.uri ∧ r.isDated name = true) ∧
    ∃ name, Template.IsVariable name r.uri ∧ r.lacksArgument name = true

/-- Only a variable without an argument is reported as one, and it is the leftmost. -/
theorem leftmostVariable_of_error (htags : r.tags ≠ []) {defaultGroup : Text} {s : σ}
    {name handler : Text}
    (h : (ofRoute now defaultGroup r).outcome s = .error (.unresolvedPathParameter name handler)) :
    Template.LeftmostVariable r.lacksArgument name r.uri ∧ handler = r.title := by
  have hends : Ends _ _ ((ofRoute now defaultGroup r).outcome s) :=
    ofRoute_fails defaultGroup htags s
  rw [h] at hends
  rw [Template.leftmostVariable_iff]
  obtain hpath | ⟨-, hmalformed | hcause⟩ := hends.of_error
  · cases hpath with
    | unresolved hfind => exact ⟨hfind, rfl⟩
  · obtain ⟨tag, problem, he⟩ := hmalformed
    cases he
  · cases hcause

/-- A path with a variable that has no argument is not documented: the leftmost one is reported,
unless a date before it has no value. -/
theorem outcome_of_lacksArgument (htags : r.tags ≠ []) (defaultGroup : Text) (s : σ) {name : Text}
    (h : Template.LeftmostVariable r.lacksArgument name r.uri) :
    (ofRoute now defaultGroup r).outcome s = .error (.unresolvedPathParameter name r.title) ∨
      ((∃ f, (ofRoute now defaultGroup r).outcome s = .error (.fault f)) ∧ now.IsPartial ∧
        HasDateFirst r) := by
  have hvariable : ∃ name, Template.IsVariable name r.uri ∧ r.lacksArgument name = true :=
    (Template.exists_leftmostVariable_iff _ _).mp ⟨name, h⟩
  have hends : Ends _ _ ((ofRoute now defaultGroup r).outcome s) :=
    ofRoute_fails defaultGroup htags s
  -- What may end a run is known from the list of names, and only two of its cases fit here.
  rw [Template.leftmostVariable_iff] at h
  rw [h] at hends
  generalize (ofRoute now defaultGroup r).outcome s = x at hends ⊢
  cases hends with
  | ok hnone => cases hnone
  | error hfails =>
      obtain hpath | ⟨hnone, -⟩ := hfails
      · cases hpath with
        | unresolved hfind =>
            rw [h] at hfind
            obtain rfl := Option.some.inj hfind
            exact .inl rfl
        | date hmiss hfind hdated =>
            have hleftmost := (Template.leftmostVariable_iff ..).mpr hfind
            exact .inr ⟨⟨_, rfl⟩, ⟨_, hmiss⟩, ⟨_, hleftmost, hdated⟩, hvariable⟩
      · cases hnone

/-- The leftmost variable without an argument is reported, from every state of every source,
unless the clock is partly out of the calendar and a date comes first. -/
theorem resolves_iff (htags : r.tags ≠ []) :
    Resolves now r ↔ ¬ (now.IsPartial ∧ HasDateFirst r) := by
  constructor
  · rintro h ⟨hclock, ⟨date, hstop, hdated⟩, hvariable⟩
    -- In the trial the date fails, and nothing is reported.
    obtain ⟨name, handler, hout⟩ := (h (Pinned now.worstSecond) ⟨⟩ []).1.mpr hvariable
    rw [Template.leftmostVariable_iff] at hstop
    obtain ⟨f, htrial⟩ := outcome_pathParameters_of_date hclock hstop hdated
    rw [ofRoute_eq now [] htags] at hout
    have hfault := Synth.outcome_bind_error htrial (ofPathParameters now [] r)
    rw [Route.argumentsByName, hout] at hfault
    cases hfault
  · intro h σ _ s defaultGroup
    refine ⟨⟨?_, ?_⟩, fun name handler hout => leftmostVariable_of_error htags hout⟩
    · rintro ⟨name, handler, hout⟩
      have hleftmost := (leftmostVariable_of_error htags hout).1
      exact (Template.exists_leftmostVariable_iff _ _).mp ⟨name, hleftmost⟩
    · intro hvariable
      obtain ⟨name, hleftmost⟩ := (Template.exists_leftmostVariable_iff _ _).mpr hvariable
      obtain hout | ⟨-, hblocked⟩ : (ofRoute now defaultGroup r).outcome s = _ ∨ _ :=
        outcome_of_lacksArgument htags defaultGroup s hleftmost
      · exact ⟨name, r.title, hout⟩
      · exact absurd hblocked h

end Endpoint

/-! ### Addresses -/

namespace CodeSample

/-- The sample of an endpoint shows an address: in a command between quotes, before the query if
there is one, and in a script as a literal. -/
def ShowsAddress (e : Endpoint) (address source : Text) : Language → Prop
  | .bash => ∃ m asked rest : Text, e.methods.head? = some m ∧
      (if query e = [] then asked = [] else ∃ shown : Text, asked = "?" ++ shown) ∧
      source = "curl -X " ++ m ++ " \"" ++ address ++ asked ++ "\"" ++ rest
  | .python => ∃ rest : Text,
      source = "import requests\n\nurl = " ++ Json.stringText address ++ "\n" ++ rest
  | .javascript => ∃ rest : Text,
      source = "const url = new URL(" ++ Json.stringText address ++ ");\n" ++ rest

/-- Texts joined by a separator start with the first of them. -/
theorem exists_intercalate_cons (separator first : Text) (others : List Text) :
    ∃ rest, separator.intercalate (first :: others) = first ++ rest := by
  cases others with
  | nil => exact ⟨[], by simp⟩
  | cons next others => exact ⟨_, by rw [List.intercalate_cons_cons, List.append_assoc]⟩

/-- Lines start with the first of them, and a line break if there are others. -/
theorem exists_unlines_append {ls ms : List Text} (hls : ls ≠ []) (hms : ms ≠ []) :
    ∃ rest : Text, unlines (ls ++ ms) = unlines ls ++ "\n" ++ rest := by
  refine ⟨unlines ms, ?_⟩
  rw [unlines_append hls hms, List.append_assoc]
  rfl

/-- The query behind an address is empty, or it starts with a question mark. -/
theorem queryPart_eq_ok {pairs : List (Text × Text)} {asked : Text}
    (h : queryPart pairs = .ok asked) :
    if pairs = [] then asked = [] else ∃ shown : Text, asked = "?" ++ shown := by
  rw [queryPart] at h
  cases pairs with
  | nil => exact (Except.ok.inj h).symm
  | cons pair pairs =>
      rw [if_neg (by simp)] at h
      rw [if_neg (by simp)]
      split at h
      · exact ⟨_, (Except.ok.inj h).symm⟩
      · cases h

variable {baseUrl source : Text} {e : Endpoint}

/-- The command shows the address between double quotes, with the query behind it. -/
theorem showsAddress_bash (h : bash baseUrl e = .ok source) :
    ∃ address, url baseUrl e = .ok address ∧ ShowsAddress e address source .bash := by
  obtain ⟨address, haddress, h⟩ := exists_of_bind_eq_ok h
  obtain ⟨pairs, hpairs, h⟩ := exists_of_bind_eq_ok h
  obtain ⟨asked, hasked, h⟩ := exists_of_bind_eq_ok h
  obtain ⟨m, hm, h⟩ := exists_of_bind_eq_ok h
  obtain ⟨data, h⟩ := exists_of_optional_eq_ok h
  obtain ⟨others, hmethods⟩ := method_eq_ok_iff.mp hm
  have hquery : if query e = [] then asked = [] else ∃ shown : Text, asked = "?" ++ shown := by
    have hlength := (forall₂_of_mapM_eq_ok hpairs).length_eq
    have hnil : query e = [] ↔ pairs = [] := by
      rw [← List.length_eq_zero_iff, hlength, List.length_eq_zero_iff]
    simp only [hnil]
    exact queryPart_eq_ok hasked
  obtain ⟨rest, hrest⟩ := exists_intercalate_cons " \\\n    "
    ("curl -X " ++ m ++ " \"" ++ address ++ asked ++ "\"") _
  refine ⟨address, haddress, m, asked, rest, by rw [hmethods, List.head?_cons], hquery, ?_⟩
  rw [← Except.ok.inj h]
  exact hrest

/-- The script shows the address as a literal, in the statement that comes first. -/
theorem showsAddress_python (h : python baseUrl e = .ok source) :
    ∃ address, url baseUrl e = .ok address ∧ ShowsAddress e address source .python := by
  obtain ⟨address, haddress, h⟩ := exists_of_bind_eq_ok h
  obtain ⟨quoted, hquoted, h⟩ := exists_of_bind_eq_ok h
  obtain rfl : Json.stringText address = quoted := Except.ok.inj hquoted
  obtain ⟨params, h⟩ := exists_of_optional_eq_ok h
  obtain ⟨payload, h⟩ := exists_of_optional_eq_ok h
  obtain ⟨sent, -, h⟩ := exists_of_bind_eq_ok h
  obtain ⟨m, -, h⟩ := exists_of_bind_eq_ok h
  obtain ⟨literal, -, h⟩ := exists_of_bind_eq_ok h
  have hlines : unlines ["import requests", "", "url = " ++ Json.stringText address]
      = "import requests\n\nurl = " ++ Json.stringText address := by
    simp [unlines, ofString]
  rw [← Except.ok.inj h, List.append_assoc, List.append_assoc]
  refine ⟨address, haddress, ?_⟩
  rw [ShowsAddress, ← hlines]
  exact exists_unlines_append (by simp) (by simp)

/-- So does the script of the browser. -/
theorem showsAddress_javascript (h : javascript baseUrl e = .ok source) :
    ∃ address, url baseUrl e = .ok address ∧ ShowsAddress e address source .javascript := by
  obtain ⟨address, haddress, h⟩ := exists_of_bind_eq_ok h
  obtain ⟨quoted, hquoted, h⟩ := exists_of_bind_eq_ok h
  obtain rfl : Json.stringText address = quoted := Except.ok.inj hquoted
  obtain ⟨params, h⟩ := exists_of_optional_eq_ok h
  obtain ⟨sent, -, h⟩ := exists_of_bind_eq_ok h
  obtain ⟨m, -, h⟩ := exists_of_bind_eq_ok h
  obtain ⟨literal, -, h⟩ := exists_of_bind_eq_ok h
  obtain ⟨data, h⟩ := exists_of_optional_eq_ok h
  have hline : unlines ["const url = new URL(" ++ Json.stringText address ++ ");"] ++ "\n"
      = "const url = new URL(" ++ Json.stringText address ++ ");\n" := by
    simp [unlines, ofString]
  refine ⟨address, haddress, ?_⟩
  rw [ShowsAddress, ← hline, ← Except.ok.inj h, List.cons_append, List.cons_append,
    ← List.singleton_append]
  exact exists_unlines_append (by simp) (by simp)

/-- Whatever the language, a sample shows the address of the endpoint. -/
theorem showsAddress_render {language : Language} (h : render language baseUrl e = .ok source) :
    ∃ address, url baseUrl e = .ok address ∧ ShowsAddress e address source language :=
  match language with
  | .bash => showsAddress_bash h
  | .python => showsAddress_python h
  | .javascript => showsAddress_javascript h

end CodeSample

namespace Endpoint

variable {σ : Type} [RandomSource σ] {now : Moment} {r : Route}

/-- The address of a documented route is its path, filled in. -/
theorem isFilled_of_url {defaultGroup : Text} {s : σ} {e : Endpoint}
    (h : (ofRoute now defaultGroup r).outcome s = .ok (some e)) {baseUrl address : Text}
    (haddress : CodeSample.url baseUrl e = .ok address) :
    ∃ filled, address = baseUrl ++ "/" ++ filled ∧
      Template.IsFilled e.parameters (r.uri.dropWhile (· = ('/' : CodePoint))) filled := by
  obtain ⟨path, query, hparameters, huri, hpath, hvariables, hquery, -⟩ :=
    exists_parameters_of_ofRoute h
  obtain ⟨filled, hfilled, haddress⟩ := exists_of_bind_eq_ok haddress
  refine ⟨filled, (Except.ok.inj haddress).symm, ?_⟩
  rw [huri] at hfilled
  refine Template.isFilled_of_fill (fun name p hp => by simp only [hp])
    (fun name hname => ?_) hfilled
  -- The parameter was made for the variable, or a query tag has put its own in its place.
  rw [Template.variableNames_dropWhile_slash, Template.mem_variableNames_iff, ← hvariables] at hname
  obtain ⟨entry, hentry, rfl⟩ := hname
  rw [hparameters]
  exact exists_get?_byName (fun entry hentry => (hpath entry hentry).1)
    (fun entry hentry => (hquery entry hentry).2) (List.mem_append_left query hentry)

/-- The leftmost variable without an argument is reported, whatever is drawn and whatever the tags
say, unless the clock is partly out of the calendar and a date comes first. And where the route is
documented, every sample shows its path filled in. -/
theorem pathVariables_resolve (htags : r.tags ≠ []) :
    (Resolves now r ↔ ¬ (now.IsPartial ∧ HasDateFirst r)) ∧
      ∀ (σ : Type) [RandomSource σ] (s : σ) (defaultGroup : Text) (e : Endpoint),
        (ofRoute now defaultGroup r).outcome s = .ok (some e) →
        ∀ language baseUrl source, CodeSample.render language baseUrl e = .ok source →
          ∃ filled,
            Template.IsFilled e.parameters (r.uri.dropWhile (· = ('/' : CodePoint))) filled ∧
            CodeSample.ShowsAddress e (baseUrl ++ "/" ++ filled) source language := by
  refine ⟨resolves_iff htags, fun σ _ s defaultGroup e he language baseUrl source hsource => ?_⟩
  obtain ⟨address, haddress, hshows⟩ := CodeSample.showsAddress_render hsource
  obtain ⟨filled, rfl, hfilled⟩ := isFilled_of_url he haddress
  exact ⟨filled, hfilled, hshows⟩

/-- A route with a variable, and with braces that form none. -/
def bracedRoute : Route :=
  { Document.lookupRoute with uri := "/users/\x7bid?\x7d/\x7b\x7d" }

/-- A route with braces that form no variable meets the conditions, and its sample has them as
they are. -/
theorem pathVariables_resolve_bracedRoute : bracedRoute.tags ≠ [] ∧
    (Resolves Document.lookupClock bracedRoute
      ↔ ¬ (Document.lookupClock.IsPartial ∧ HasDateFirst bracedRoute)) ∧
    ∃ e source filled,
      (ofRoute Document.lookupClock "users" bracedRoute).outcome (Congruential.ofSeed 0)
        = .ok (some e) ∧
      CodeSample.render .bash "http://localhost" e = .ok source ∧
      Template.IsFilled e.parameters
        (bracedRoute.uri.dropWhile (· = ('/' : CodePoint))) filled ∧
      CodeSample.ShowsAddress e ("http://localhost" ++ "/" ++ filled) source .bash := by
  obtain ⟨hresolves, hfilled⟩ : (Resolves Document.lookupClock bracedRoute ↔ _) ∧ _ :=
    pathVariables_resolve (by decide)
  obtain ⟨e, he, source, hsource⟩ : ∃ e,
      (ofRoute Document.lookupClock "users" bracedRoute).outcome (Congruential.ofSeed 0)
        = .ok (some e) ∧
      ∃ source, CodeSample.render .bash "http://localhost" e = .ok source := ⟨_, rfl, _, rfl⟩
  obtain ⟨filled, hfill, hshows⟩ := hfilled _ _ _ _ he _ _ _ hsource
  exact ⟨by decide, hresolves, e, source, filled, he, hsource, hfill, hshows⟩

/-- A route with a dated variable, and one behind it that its handler has no argument for. -/
def archiveRoute : Route :=
  { datedRoute with uri := "on/\x7bday\x7d/\x7bid\x7d" }

/-- On the first evening of the calendar the date has no value, and the variable without an
argument is not reported. -/
theorem not_resolves_archiveRoute : archiveRoute.tags ≠ [] ∧
    Template.LeftmostVariable archiveRoute.lacksArgument "id" archiveRoute.uri ∧
    (ofRoute edgeClock "general" archiveRoute).outcome (Congruential.ofSeed 0)
      = .error (.fault .badValue) ∧
    ¬ Resolves edgeClock archiveRoute := by
  have hvariable : Template.LeftmostVariable archiveRoute.lacksArgument "id" archiveRoute.uri :=
    (Template.leftmostVariable_iff ..).mpr (by decide)
  have hmiss : edgeClock.drawn (Synthesis.drawnSeconds edgeClock (Congruential.ofSeed 0))
      = .error .badValue := by decide +kernel
  have hdate : (synthesized edgeClock "path" "day" (some "date")).outcome (Congruential.ofSeed 0)
      = .error (.fault .badValue) := outcome_synthesized_of_drawn hmiss "path" "day" (by decide)
  -- The date comes first among the variables, so its fault is what the route ends with.
  have hout : (ofRoute edgeClock "general" archiveRoute).outcome (Congruential.ofSeed 0)
      = .error (.fault .badValue) := by
    have hnames : Template.variableNames archiveRoute.uri = [("day" : Text), "id"] := by decide
    have hday : Entries.get? (Text.ofString "day") archiveRoute.argumentsByName
        = some { name := "day", type := some "date" } := by decide
    rw [ofRoute_eq _ _ (by decide)]
    refine Synth.outcome_bind_error ?_ _
    rw [hnames, pathParameters, ← Route.argumentsByName, hday]
    exact Synth.outcome_bind_error hdate _
  refine ⟨by decide, hvariable, hout, fun h => ?_⟩
  obtain ⟨name, handler, hreported⟩ := (h _ (Congruential.ofSeed 0) "general").1.mpr
    ((Template.exists_leftmostVariable_iff _ _).mp ⟨_, hvariable⟩)
  rw [hout] at hreported
  cases hreported

end Endpoint

end RouteDocs
