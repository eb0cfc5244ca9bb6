import RouteDocs.Load.Manifest
import RouteDocs.Load.Settings
import RouteDocs.Proofs.Coupling
import RouteDocs.Proofs.ReadingFaults

/-!
# `RouteDocs.Proofs.ManifestFaults`: entries that a manifest cannot have

Most of what is wrong with an entry of a manifest is reported. But an entry is taken apart before
it is checked, and taking it apart can fail by a fault, which nothing reports. This module says
exactly when it does.

* A value that is to be gone through is a lone scalar: `routes`, `tags`, `arguments` or `input`.
* A mapping in a list of arguments has a key that is not a text.
* The rules that apply to a route are not a mapping.
* A value has to be shown and cannot be, for a number with too many digits in it or for its depth:
  an entry or a tag that is not a mapping, or the path template of an entry with a problem.

Entries are read one after the other, and so are the parts of an entry. What comes first decides,
so each cause also says that what is read before it could be read. `routesOf_failsAs` puts this
together: every failure is a report about the manifest, or a fault with its `ContentFault`.
-/

set_option autoImplicit false

namespace RouteDocs

open Text Check

/-! ### Declared failures -/

/-- A failure is about the settings or the manifest. -/
def Error.IsConfig (e : Error) : Prop := ∃ problem, e = .config problem

/-- A result is a value, a failure as declared, or a fault with one of the given causes, and each
cause leads to its fault. -/
structure FailsAs {α : Type} (declared : Error → Prop) (cause : Fault → Prop)
    (r : Except Error α) : Prop where
  ends : Ends (fun _ => True) (fun e => declared e ∨ ∃ f, e = .fault f ∧ cause f) r
  of_cause : ∀ f, cause f → r = .error (.fault f)

/-- A failure is one that was declared, or a fault. -/
theorem FailsAs.declared_or_fault {α : Type} {declared : Error → Prop} {cause : Fault → Prop}
    {r : Except Error α} {e : Error} (h : FailsAs declared cause r) (hr : r = .error e) :
    declared e ∨ ∃ f, e = .fault f := by
  have hends := h.ends
  rw [hr] at hends
  exact hends.of_error.imp_right fun ⟨f, hf, _⟩ => ⟨f, hf⟩

/-- A mapping has a key that is not a text. -/
def HasOddKey (entries : List (Scalar × Part)) : Prop := ∃ x ∈ entries, ∀ s, x.1 ≠ .str s

/-- The test on keys fails exactly if one of them is not a text. -/
theorem hasTextKeys_eq_false_iff {entries : List (Scalar × Part)} :
    Settings.hasTextKeys entries = false ↔ HasOddKey entries := by
  rw [Settings.hasTextKeys, List.all_eq_false, HasOddKey]
  refine exists_congr fun x => and_congr_right fun _ => ?_
  cases x.1 with
  | str s => simp
  | _ => simp

namespace Manifest

/-! ### What can be gone through -/

section Elements

variable {p : Part} {key : String} {entries : List (Scalar × Part)} {e : Error}

/-- A part with nothing to go through: a scalar that is neither a text nor bytes. -/
def IsLone (p : Part) : Prop :=
  ∃ s, p.view = .scalar s ∧ (∀ t, s ≠ .str t) ∧ ∀ b, s ≠ .bytes b

/-- A part cannot be gone through exactly if it is a number, a truth value, null or the like. -/
theorem elements_eq_error_iff : elements p = .error e ↔ IsLone p ∧ e = .fault .wrongKind := by
  constructor
  · intro h
    rw [elements.eq_def] at h
    split at h
    case h_7 s hstr hbytes hview => exact ⟨⟨s, hview, hstr, hbytes⟩, (Except.error.inj h).symm⟩
    all_goals cases h
  · rintro ⟨⟨s, hview, hstr, hbytes⟩, rfl⟩
    rw [elements, hview]
    cases s with
    | str t => exact absurd rfl (hstr t)
    | bytes b => exact absurd rfl (hbytes b)
    | _ => rfl

/-- The same of what stands under a key. Nothing there is no failure. -/
theorem elementsUnder_eq_error_iff :
    elementsUnder key entries = .error e
      ↔ (∃ p, presentUnder? key entries = some p ∧ IsLone p) ∧ e = .fault .wrongKind := by
  rw [elementsUnder]
  cases hp : presentUnder? key entries with
  | none => exact iff_of_false nofun fun h => by obtain ⟨⟨_, h, -⟩, -⟩ := h; cases h
  | some p =>
      rw [elements_eq_error_iff]
      simp

/-- A failure that is passed on is the failure itself. -/
theorem liftError_eq_error_iff {α : Type} {r : Except Error α} :
    liftError r = .error (.error e) ↔ r = .error e := by
  cases r with
  | ok a => exact iff_of_false nofun nofun
  | error e' =>
      show Except.error (EntryFailure.error e') = .error (.error e) ↔ _
      simp

/-- A value that is passed on is the value itself. -/
theorem liftError_eq_ok_iff {α : Type} {r : Except Error α} {a : α} :
    liftError r = .ok a ↔ r = .ok a := by
  cases r with
  | ok b =>
      show Except.ok b = .ok a ↔ _
      simp
  | error e => exact iff_of_false nofun nofun

/-- A check finds problems of the entry and nothing else. -/
theorem liftCheck_ne_error {α : Type} (model : Model) (c : Checked α) :
    liftCheck model c ≠ .error (.error e) := by
  cases c <;> exact nofun

end Elements

/-! ### The parts of an entry -/

section Entries

variable {e : Element} {p : Part} {key : String} {entries : List (Scalar × Part)} {err : Error}

/-- Why a tag that is not a mapping ends the reading of a manifest. -/
inductive TagStop (v : Value) : Error → Prop where
  /-- The value has no text. -/
  | unshown {f : Fault} (h : v.Unshown f) : TagStop v (.fault f)
  /-- The text has no name in it. -/
  | empty {shown : Text} (hshown : v.display = .ok shown)
      (h : tagOfText shown = .error (.config .emptyTag)) : TagStop v (.config .emptyTag)

/-- The only thing wrong with the text of a tag is that there is no name in it. -/
theorem eq_of_tagOfText {text : Text} (h : tagOfText text = .error err) :
    err = .config .emptyTag := by
  rw [tagOfText] at h
  dsimp only at h
  generalize takeToken _ = token at h
  split at h
  · exact (Except.error.inj h).symm
  · cases h

/-- A value that cannot be shown stops the reading by the fault of showing it. -/
theorem tagStop_iff_of_error {v : Value} {f : Fault} (h : v.display = .error f) :
    TagStop v err ↔ err = .fault f := by
  constructor
  · intro hstop
    cases hstop with
    | unshown hunshown =>
        rw [Value.display_eq_error_iff.mpr hunshown] at h
        cases h
        rfl
    | empty hshown _ =>
        rw [h] at hshown
        cases hshown
  · rintro rfl
    exact .unshown (Value.display_eq_error_iff.mp h)

/-- A value that is shown stops the reading exactly if the text of it does. -/
theorem tagStop_iff_of_ok {v : Value} {shown : Text} (h : v.display = .ok shown) :
    TagStop v err ↔ tagOfText shown = .error err := by
  constructor
  · intro hstop
    cases hstop with
    | unshown hunshown =>
        rw [Value.display_eq_error_iff.mpr hunshown] at h
        cases h
    | empty hshown htag =>
        rw [h] at hshown
        cases hshown
        exact htag
  · intro htag
    obtain rfl := eq_of_tagOfText htag
    exact .empty h htag

/-- A tag stops the reading exactly if it is not a mapping, and cannot be shown or has no name in
its text. -/
theorem tagOf_eq_error_iff :
    tagOf e = .error (.error err) ↔ e.entries? = none ∧ TagStop e.value err := by
  rw [tagOf]
  cases hentries : e.entries? with
  | some entries =>
      -- A mapping is only checked, and what a check finds is a problem of the entry.
      refine iff_of_false ?_ nofun
      dsimp only
      split
      · exact nofun
      · exact liftCheck_ne_error _ _
  | none =>
      rw [liftError_eq_error_iff, and_iff_right rfl]
      cases hdisplay : e.value.display with
      | error f =>
          rw [tagStop_iff_of_error hdisplay]
          show Except.error (Error.fault f) = .error err ↔ _
          rw [Except.error.injEq, eq_comm]
      | ok shown => exact (tagStop_iff_of_ok hdisplay).symm

/-- An argument stops the reading exactly if it is a mapping with a key that is not a text. -/
theorem argumentOf_eq_error_iff :
    argumentOf e = .error (.error err)
      ↔ (∃ entries, e.entries? = some entries ∧ HasOddKey entries) ∧ err = .fault .wrongKind := by
  rw [argumentOf]
  cases hentries : e.entries? with
  | none =>
      refine iff_of_false (liftCheck_ne_error _ _) ?_
      rintro ⟨⟨_, h, -⟩, -⟩
      cases h
  | some entries =>
      -- The fields of an argument are told by the same test as settings.
      simp only [Option.some.injEq, exists_eq_left', ← hasTextKeys_eq_false_iff]
      change (if Settings.hasTextKeys entries = true then _ else _) = _ ↔ _
      cases Settings.hasTextKeys entries with
      | true => exact iff_of_false (liftCheck_ne_error _ _) nofun
      | false =>
          refine ⟨fun h => ?_, fun h => ?_⟩
          · cases h
            exact ⟨rfl, rfl⟩
          · rw [h.2]
            rfl

/-- Why a part cannot be taken for arguments. -/
inductive ArgumentsStop (p : Part) : Prop where
  /-- There is a value, and it is a lone scalar. -/
  | lone (htruthy : p.isTruthy = true) (h : IsLone p)
  /-- A mapping in it has a key that is not a text, and what is before it are arguments. -/
  | oddKey {before after : List Element} {e : Element}
      (hitems : elements p = .ok (before ++ e :: after))
      (hbefore : ∀ b ∈ before, ∃ a, argumentOf b = .ok a)
      {entries : List (Scalar × Part)} (hentries : e.entries? = some entries)
      (h : HasOddKey entries)

/-- A part with elements counts as present. -/
theorem isTruthy_of_elements {before after : List Element}
    (h : elements p = .ok (before ++ e :: after)) : p.isTruthy = true := by
  have hne : ∀ items : List Element, elements p = .ok items → items ≠ [] := by
    intro items hitems
    rw [h] at hitems
    cases hitems
    simp
  rw [Part.isTruthy]
  rw [elements.eq_def] at hne
  -- Both tell by the topmost level, whether it is empty.
  cases hview : p.view with
  | list items => simpa [hview, View.isTruthy] using hne
  | pair k v => rfl
  | set members => simpa [hview, View.isTruthy] using hne
  | map entries => simpa [hview, View.isTruthy] using hne
  | scalar s =>
      cases s with
      | str t => simpa [hview, View.isTruthy, Value.isTruthy] using hne
      | bytes b => simpa [hview, View.isTruthy, Value.isTruthy] using hne
      | _ =>
          rw [elements, hview] at h
          cases h

/-- Arguments stop the reading exactly if they cannot be gone through or one of them does. -/
theorem argumentsOf_eq_error_iff :
    argumentsOf p = .error (.error err) ↔ ArgumentsStop p ∧ err = .fault .wrongKind := by
  -- Falsy arguments are none, a mapping has its keys checked, and anything else is gone through.
  rw [argumentsOf]
  split
  · rename_i hfalsy
    rw [Bool.not_eq_true'] at hfalsy
    refine iff_of_false nofun ?_
    rintro ⟨hstop, -⟩
    cases hstop with
    | lone htruthy _ => exact absurd hfalsy (by rw [htruthy]; decide)
    | oddKey hitems _ _ _ => exact absurd hfalsy (by rw [isTruthy_of_elements hitems]; decide)
  · rename_i htruthy
    rw [Bool.not_eq_true', Bool.not_eq_false] at htruthy
    split
    · -- The keys of a mapping are names, and are only checked.
      rename_i entries hview
      refine iff_of_false ?_ ?_
      · intro h
        obtain ⟨_, _, _, _, _, h⟩ := mapM_eq_error_iff.mp h
        exact liftCheck_ne_error _ _ h
      · rintro ⟨hstop, -⟩
        cases hstop with
        | lone _ hlone =>
            obtain ⟨s, hscalar, -⟩ := hlone
            rw [hview] at hscalar
            cases hscalar
        | @oddKey before after e hitems _ _ hentries _ =>
            have hmem : e ∈ entries.map fun x => Element.scalar x.1 := by
              rw [elements, hview] at hitems
              rw [Except.ok.inj hitems]
              simp
            obtain ⟨_, -, rfl⟩ := List.mem_map.mp hmem
            cases hentries
    · constructor
      · intro h
        obtain h | ⟨items, hitems, h⟩ := bind_eq_error_iff.mp h
        · obtain ⟨hlone, rfl⟩ := elements_eq_error_iff.mp (liftError_eq_error_iff.mp h)
          exact ⟨.lone htruthy hlone, rfl⟩
        · obtain ⟨before, e, after, rfl, hbefore, he⟩ := mapM_eq_error_iff.mp h
          obtain ⟨⟨entries, hentries, hodd⟩, rfl⟩ := argumentOf_eq_error_iff.mp he
          exact ⟨.oddKey (liftError_eq_ok_iff.mp hitems) hbefore hentries hodd, rfl⟩
      · rintro ⟨hstop, rfl⟩
        cases hstop with
        | lone _ h =>
            apply bind_eq_error_of_error
            rw [liftError_eq_error_iff, elements_eq_error_iff]
            exact ⟨h, rfl⟩
        | oddKey hitems hbefore hentries h =>
            apply bind_eq_error_of_ok (liftError_eq_ok_iff.mpr hitems)
            rw [mapM_eq_error_iff]
            exact ⟨_, _, _, rfl, hbefore, argumentOf_eq_error_iff.mpr ⟨⟨_, hentries, h⟩, rfl⟩⟩

/-- The same of what stands under a key. -/
theorem argumentsUnder_eq_error_iff :
    argumentsUnder key entries = .error (.error err)
      ↔ (∃ p, Entries.get? (.str key) entries = some p ∧ ArgumentsStop p) ∧
        err = .fault .wrongKind := by
  rw [argumentsUnder]
  cases hp : Entries.get? (.str key) entries with
  | none => exact iff_of_false nofun fun h => by obtain ⟨⟨_, h, -⟩, -⟩ := h; cases h
  | some p =>
      have hmap : (argumentsOf p).map some = .error (.error err)
          ↔ argumentsOf p = .error (.error err) := by
        cases argumentsOf p <;> simp [Except.map]
      simp only [Option.some.injEq, exists_eq_left', ← argumentsOf_eq_error_iff, ← hmap]
      split
      · -- No value counts as no arguments.
        rename_i hview
        have htruthy : p.isTruthy = false := by rw [Part.isTruthy, hview]; rfl
        rw [argumentsOf, htruthy]
        exact iff_of_false nofun nofun
      · rfl

/-- The rules that apply to an entry are there, and are not a mapping. -/
def HasOddRules (entries : List (Scalar × Part)) : Prop :=
  ∃ rules, presentUnder? "apply" entries = some rules ∧ ∀ es, rules.view ≠ .map es

/-- The headers of an entry stop the reading exactly if its rules are not a mapping. -/
theorem headersOf_eq_error_iff :
    headersOf entries = .error (.error err) ↔ HasOddRules entries ∧ err = .fault .noSuchPart := by
  rw [headersOf, HasOddRules]
  cases hrules : presentUnder? "apply" entries with
  | none => exact iff_of_false nofun fun h => by obtain ⟨⟨_, h, -⟩, -⟩ := h; cases h
  | some rules =>
      dsimp only
      split
      · rename_i es hview
        refine iff_of_false nofun ?_
        rintro ⟨⟨_, h, hodd⟩, -⟩
        cases h
        exact hodd es hview
      · rename_i hview
        constructor
        · intro h
          cases h
          exact ⟨⟨rules, rfl, hview⟩, rfl⟩
        · rintro ⟨-, rfl⟩
          rfl

/-! ### Entries -/

/-- An entry has a path template. -/
def HasUri (entries : List (Scalar × Part)) : Prop := ∃ uri, valueUnder? "uri" entries = some uri

/-- The tags of an entry can be read. -/
def ReadsTags (entries : List (Scalar × Part)) : Prop :=
  ∃ items tags, elementsUnder "tags" entries = .ok items ∧ items.mapM tagOf = .ok tags

/-- The arguments under a key of an entry can be read. -/
def ReadsArguments (key : String) (entries : List (Scalar × Part)) : Prop :=
  ∃ arguments, argumentsUnder key entries = .ok arguments

/-- Why an entry ends the reading of a manifest without being named. -/
inductive EntryStop (entries : List (Scalar × Part)) : Error → Prop where
  /-- The tags are a lone scalar. -/
  | tags {p : Part} (huri : HasUri entries) (hp : presentUnder? "tags" entries = some p)
      (h : IsLone p) : EntryStop entries (.fault .wrongKind)
  /-- A tag cannot be read, and those before it can. -/
  | tag {before after : List Element} {e : Element} {err : Error} (huri : HasUri entries)
      (hitems : elementsUnder "tags" entries = .ok (before ++ e :: after))
      (hbefore : ∀ b ∈ before, ∃ t, tagOf b = .ok t) (hentries : e.entries? = none)
      (h : TagStop e.value err) : EntryStop entries err
  /-- The arguments cannot be taken apart. -/
  | arguments {p : Part} (huri : HasUri entries) (htags : ReadsTags entries)
      (hp : Entries.get? (.str "arguments") entries = some p) (h : ArgumentsStop p) :
      EntryStop entries (.fault .wrongKind)
  /-- The fields of the input cannot be taken apart. -/
  | input {p : Part} (huri : HasUri entries) (htags : ReadsTags entries)
      (harguments : ReadsArguments "arguments" entries)
      (hp : Entries.get? (.str "input") entries = some p) (h : ArgumentsStop p) :
      EntryStop entries (.fault .wrongKind)
  /-- The rules are not a mapping. -/
  | rules (huri : HasUri entries) (htags : ReadsTags entries)
      (harguments : ReadsArguments "arguments" entries) (hinput : ReadsArguments "input" entries)
      (h : HasOddRules entries) : EntryStop entries (.fault .noSuchPart)

/-- An entry stops the reading, without being named, exactly for one of the reasons in
`EntryStop`. -/
theorem routeOfEntries_eq_error_iff :
    routeOfEntries entries = .error (.error err) ↔ EntryStop entries err := by
  rw [routeOfEntries]
  cases huri : valueUnder? "uri" entries with
  | none =>
      refine iff_of_false nofun fun hstop => ?_
      obtain ⟨uri, h⟩ : HasUri entries := by cases hstop <;> assumption
      rw [huri] at h
      cases h
  | some uri =>
      have huri : HasUri entries := ⟨uri, huri⟩
      constructor
      · intro h
        -- The parts are read in turn, and the check of the fields is last.
        obtain h | ⟨items, hitems, h⟩ := bind_eq_error_iff.mp h
        · obtain ⟨⟨p, hp, hlone⟩, rfl⟩ :=
            elementsUnder_eq_error_iff.mp (liftError_eq_error_iff.mp h)
          exact .tags huri hp hlone
        rw [liftError_eq_ok_iff] at hitems
        obtain h | ⟨tags, htags, h⟩ := bind_eq_error_iff.mp h
        · obtain ⟨before, e, after, rfl, hbefore, he⟩ := mapM_eq_error_iff.mp h
          obtain ⟨hentries, hstop⟩ := tagOf_eq_error_iff.mp he
          exact .tag huri hitems hbefore hentries hstop
        have htags : ReadsTags entries := ⟨items, tags, hitems, htags⟩
        obtain h | ⟨arguments, harguments, h⟩ := bind_eq_error_iff.mp h
        · obtain ⟨⟨p, hp, hstop⟩, rfl⟩ := argumentsUnder_eq_error_iff.mp h
          exact .arguments huri htags hp hstop
        obtain h | ⟨input, hinput, h⟩ := bind_eq_error_iff.mp h
        · obtain ⟨⟨p, hp, hstop⟩, rfl⟩ := argumentsUnder_eq_error_iff.mp h
          exact .input huri htags ⟨arguments, harguments⟩ hp hstop
        obtain h | ⟨headers, hheaders, h⟩ := bind_eq_error_iff.mp h
        · obtain ⟨hodd, rfl⟩ := headersOf_eq_error_iff.mp h
          exact .rules huri htags ⟨arguments, harguments⟩ ⟨input, hinput⟩ hodd
        · exact absurd h (liftCheck_ne_error _ _)
      · intro hstop
        cases hstop with
        | tags _ hp h =>
            apply bind_eq_error_of_error
            rw [liftError_eq_error_iff, elementsUnder_eq_error_iff]
            exact ⟨⟨_, hp, h⟩, rfl⟩
        | tag _ hitems hbefore hentries h =>
            apply bind_eq_error_of_ok (liftError_eq_ok_iff.mpr hitems)
            apply bind_eq_error_of_error
            rw [mapM_eq_error_iff]
            exact ⟨_, _, _, rfl, hbefore, tagOf_eq_error_iff.mpr ⟨hentries, h⟩⟩
        | arguments _ htags hp h =>
            obtain ⟨items, tags, hitems, htags⟩ := htags
            apply bind_eq_error_of_ok (liftError_eq_ok_iff.mpr hitems)
            apply bind_eq_error_of_ok htags
            exact bind_eq_error_of_error (argumentsUnder_eq_error_iff.mpr ⟨⟨_, hp, h⟩, rfl⟩) _
        | input _ htags harguments hp h =>
            obtain ⟨items, tags, hitems, htags⟩ := htags
            obtain ⟨arguments, harguments⟩ := harguments
            apply bind_eq_error_of_ok (liftError_eq_ok_iff.mpr hitems)
            apply bind_eq_error_of_ok htags
            apply bind_eq_error_of_ok harguments
            exact bind_eq_error_of_error (argumentsUnder_eq_error_iff.mpr ⟨⟨_, hp, h⟩, rfl⟩) _
        | rules _ htags harguments hinput h =>
            obtain ⟨items, tags, hitems, htags⟩ := htags
            obtain ⟨arguments, harguments⟩ := harguments
            obtain ⟨input, hinput⟩ := hinput
            apply bind_eq_error_of_ok (liftError_eq_ok_iff.mpr hitems)
            apply bind_eq_error_of_ok htags
            apply bind_eq_error_of_ok harguments
            apply bind_eq_error_of_ok hinput
            exact bind_eq_error_of_error (headersOf_eq_error_iff.mpr ⟨h, rfl⟩) _

/-- What ends the reading without naming an entry is a report or a fault. -/
theorem EntryStop.isConfig_or_fault (h : EntryStop entries err) :
    err.IsConfig ∨ ∃ f, err = .fault f := by
  cases h with
  | tag _ _ _ _ h =>
      cases h with
      | unshown _ => exact .inr ⟨_, rfl⟩
      | empty _ _ => exact .inl ⟨_, rfl⟩
  | _ => exact .inr ⟨_, rfl⟩

/-- Why an element of a manifest ends its reading by a fault. -/
inductive ElementFault (e : Element) (f : Fault) : Prop where
  /-- It is not a mapping, and cannot be shown. -/
  | notMap (h : e.entries? = none) (hlong : e.value.Unshown f)
  /-- It cannot be taken apart. -/
  | stop {entries : List (Scalar × Part)} (h : e.entries? = some entries)
      (hstop : EntryStop entries (.fault f))
  /-- It has a problem, and its path template cannot be shown. -/
  | unnamed {entries : List (Scalar × Part)} {problem : EntryProblem} {uri : Value}
      (h : e.entries? = some entries)
      (hproblem : routeOfEntries entries = .error (.problem problem))
      (huri : valueUnder? "uri" entries = some uri) (hlong : uri.Unshown f)

/-- An element is read as a route, or it is reported by name, or it ends the reading by a fault;
and the faults are exactly those of `ElementFault`. -/
theorem routeOf_failsAs (e : Element) : FailsAs Error.IsConfig (ElementFault e) (routeOf e) where
  ends := by
    rw [routeOf]
    cases hentries : e.entries? with
    | none =>
        refine (e.value.literal_ends.mapError fun f hf => ?_).bind fun _ _ => .error (.inl ⟨_, rfl⟩)
        exact .inr ⟨f, rfl, .notMap hentries hf⟩
    | some entries =>
        dsimp only
        cases hroute : routeOfEntries entries with
        | ok r => exact .ok trivial
        | error failure =>
            cases failure with
            | error err =>
                have hstop := routeOfEntries_eq_error_iff.mp hroute
                obtain hconfig | ⟨f, rfl⟩ := hstop.isConfig_or_fault
                · exact .error (.inl hconfig)
                · exact .error (.inr ⟨f, rfl, .stop hentries hstop⟩)
            | problem problem =>
                -- The problem is reported with the path template, if that can be shown.
                dsimp only
                cases huri : valueUnder? "uri" entries with
                | none => exact .error (.inl ⟨_, rfl⟩)
                | some uri =>
                    refine (uri.display_ends.mapError fun f hf => ?_).bind
                      fun _ _ => .error (.inl ⟨_, rfl⟩)
                    exact .inr ⟨f, rfl, .unnamed hentries hroute huri hf⟩
  of_cause f h := by
    cases h with
    | notMap h hlong =>
        rw [routeOf, h, Value.literal_eq_error_iff.mpr hlong]
        rfl
    | stop h hstop =>
        rw [routeOf, h]
        dsimp only
        rw [routeOfEntries_eq_error_iff.mpr hstop]
    | unnamed h hproblem huri hlong =>
        rw [routeOf, h]
        dsimp only
        rw [hproblem]
        dsimp only
        rw [huri]
        dsimp only
        rw [Value.display_eq_error_iff.mpr hlong]
        rfl

end Entries

/-! ### Whole manifests -/

/-- A manifest lists elements, at its top or under the key for routes. -/
def Lists (p : Part) (items : List Element) : Prop :=
  (∃ entries, p.view = .map entries ∧ elementsUnder "routes" entries = .ok items) ∨
    ∃ parts, p.view = .list parts ∧ items = parts.map .part

/-- Why the content of a manifest cannot be read, by a fault. -/
inductive ContentFault (p : Part) : Fault → Prop where
  /-- The routes are a lone scalar. -/
  | routes {entries : List (Scalar × Part)} {q : Part} (hp : p.view = .map entries)
      (hq : presentUnder? "routes" entries = some q) (h : IsLone q) : ContentFault p .wrongKind
  /-- An element cannot be read, and those before it are routes. -/
  | element {before after : List Element} {e : Element} {f : Fault}
      (hlists : Lists p (before ++ e :: after)) (hbefore : ∀ b ∈ before, ∃ r, routeOf b = .ok r)
      (h : ElementFault e f) : ContentFault p f

/-- A manifest that lists elements is read one by one, and routes that are hidden are left out. -/
theorem routesOf_of_lists {p : Part} {items : List Element} (h : Lists p items) (path : Path) :
    routesOf path p
      = (items.mapM routeOf).map fun routes => routes.filter fun r => !isHidden r := by
  rw [routesOf]
  obtain ⟨entries, hview, hitems⟩ | ⟨parts, hview, rfl⟩ := h
  · rw [hview]
    dsimp only
    rw [hitems]
    rfl
  · rw [hview]
    rfl

/-- The elements of a manifest are read up to the first that fails, and those before it are
all routes. -/
theorem mapM_routeOf_ends (items : List Element) :
    Ends (fun _ => True)
      (fun err => err.IsConfig ∨ ∃ f before e after, err = .fault f ∧
        items = before ++ e :: after ∧ (∀ b ∈ before, ∃ r, routeOf b = .ok r) ∧ ElementFault e f)
      (items.mapM routeOf) := by
  cases hroutes : items.mapM routeOf with
  | ok routes => exact .ok trivial
  | error err =>
      obtain ⟨before, e, after, rfl, hbefore, he⟩ := mapM_eq_error_iff.mp hroutes
      have hends := (routeOf_failsAs e).ends
      rw [he] at hends
      refine .error (hends.of_error.imp_right ?_)
      rintro ⟨f, rfl, hf⟩
      exact ⟨f, before, e, after, rfl, rfl, hbefore, hf⟩

/-- The routes of a manifest are read, or the failure is a report, or it is a fault with its
cause. -/
theorem routesOf_failsAs (path : Path) (p : Part) :
    FailsAs Error.IsConfig (ContentFault p) (routesOf path p) where
  ends := by
    have hlisted : ∀ items, Lists p items → Ends (fun _ => True)
        (fun err => err.IsConfig ∨ ∃ f, err = .fault f ∧ ContentFault p f) (routesOf path p) := by
      intro items hitems
      rw [routesOf_of_lists hitems]
      refine ((mapM_routeOf_ends items).mono_error fun err => Or.imp_right ?_).map
        fun _ _ => trivial
      rintro ⟨f, before, e, after, rfl, rfl, hbefore, hf⟩
      exact ⟨f, rfl, .element hitems hbefore hf⟩
    cases hview : p.view with
    | list parts => exact hlisted _ (.inr ⟨parts, hview, rfl⟩)
    | map entries =>
        cases hitems : elementsUnder "routes" entries with
        | ok items => exact hlisted items (.inl ⟨entries, hview, hitems⟩)
        | error err =>
            obtain ⟨⟨q, hq, hlone⟩, rfl⟩ := elementsUnder_eq_error_iff.mp hitems
            rw [routesOf, hview]
            dsimp only
            rw [hitems]
            exact .error (.inr ⟨_, rfl, .routes hview hq hlone⟩)
    | _ =>
        -- What is neither a mapping nor a list is reported.
        rw [routesOf, hview]
        exact .error (.inl ⟨_, rfl⟩)
  of_cause f h := by
    cases h with
    | routes hp hq h =>
        rw [routesOf, hp]
        dsimp only
        rw [elementsUnder_eq_error_iff.mpr ⟨⟨_, hq, h⟩, rfl⟩]
        rfl
    | element hlists hbefore h =>
        have hroute := (routeOf_failsAs _).of_cause f h
        rw [routesOf_of_lists hlists, mapM_eq_error_iff.mpr ⟨_, _, _, rfl, hbefore, hroute⟩]
        rfl

end Manifest

end RouteDocs
