import Mathlib.Data.List.TakeWhile
import RouteDocs.Proofs.DocumentPaths
import RouteDocs.Proofs.Words
import RouteDocs.Random.Congruential

/-!
# `RouteDocs.Proofs.PathVariables`: which path variables stay path parameters

Every variable of a route's path has to be an argument of the handler, and becomes a path
parameter that has to be given. The parameters of query tags are written after these, under
their names. So a query tag that names a variable takes its place, and the path keeps a
variable that its operation does not declare.

`pathVariables_iff` says that this is the only way to lose one: a variable has its parameter,
in the endpoint and in every operation of it, exactly if no query tag of the route names it.
A tag names its parameter, or the properties that it lists for a composition (`NamesParameter`).

Variables are told by a grammar of their own, `IsVariable`, which reads a template from left
to right.
-/

set_option autoImplicit false

namespace RouteDocs

open Text

/-! ### The variables of a template -/

namespace Template

/-- The end of a variable: a closing brace, or a pattern and a closing brace. -/
inductive IsEnding : Text → Prop where
  /-- `}`. -/
  | brace : IsEnding "\x7d"
  /-- `:pattern}`. -/
  | pattern {p : Text} (h : .char '\x7d' ∉ p) : IsEnding (":" ++ p ++ "\x7d")

/-- A variable as it is written: an opening brace, its name, a question mark or none, and an
end. -/
def IsPlaceholder (name source : Text) : Prop :=
  name ≠ [] ∧ (∀ c ∈ name, isWord c = true) ∧
    ∃ mark ending, (mark = [] ∨ mark = ofString "?") ∧ IsEnding ending ∧
      source = "\x7b" ++ (name ++ (mark ++ ending))

/-- The name is that of a variable of the template. A variable is passed over as a whole, and
other characters one by one. -/
inductive IsVariable (name : Text) : Text → Prop where
  /-- The template starts with the variable. -/
  | here {source : Text} (h : IsPlaceholder name source) (rest : Text) :
      IsVariable name (source ++ rest)
  /-- The variable comes after another one. -/
  | after {other source rest : Text} (h : IsPlaceholder other source)
      (hrest : IsVariable name rest) :
      IsVariable name (source ++ rest)
  /-- The variable comes after a character that starts none. -/
  | skip {c : CodePoint} {cs : Text}
      (h : ∀ other source, IsPlaceholder other source → ¬ source <+: c :: cs)
      (hrest : IsVariable name cs) : IsVariable name (c :: cs)

/-- The end of a variable behind its question mark. -/
def ending? : Text → Option Text
  | .char '\x7d' :: _ => some "\x7d"
  | .char ':' :: pattern =>
    if pattern.contains (.char '\x7d') then
      some (":" ++ pattern.takeWhile (· ≠ (.char '\x7d' : CodePoint)) ++ "\x7d")
    else none
  | _ => none

/-- The end of a variable is read as the grammar has it: a closing brace, or a colon, a pattern
and a closing brace. -/
theorem ending?_eq_some_iff (s ending : Text) :
    ending? s = some ending ↔ IsEnding ending ∧ ending <+: s := by
  constructor
  · intro h
    unfold ending? at h
    split at h
    · obtain rfl := Option.some.inj h
      exact ⟨.brace, by simp [ofString]⟩
    · split at h
      · rename_i hmem
        obtain ⟨p, after, rfl, hp⟩ := List.eq_append_cons_of_mem (List.contains_iff_mem.mp hmem)
        -- The pattern ends at the first closing brace.
        rw [takeWhile_ne_append_cons hp] at h
        obtain rfl := Option.some.inj h
        exact ⟨.pattern hp, after, by simp [ofString]⟩
      · cases h
    · cases h
  · rintro ⟨h, rest, rfl⟩
    cases h with
    | brace => rfl
    | @pattern p hp =>
        have hs : ":" ++ p ++ "\x7d" ++ rest = .char ':' :: (p ++ .char '\x7d' :: rest) := by
          simp [ofString]
        rw [hs, ending?, if_pos (by simp), takeWhile_ne_append_cons hp]

/-- A question mark in front of the end is passed over, and is part of what was read. -/
theorem variableEnd?_mark (rest : Text) :
    variableEnd? (.char '?' :: rest) = (ending? rest).map (ofString "?" ++ ·) := by
  unfold variableEnd?
  split
  rename_i heq
  obtain ⟨rfl, rfl⟩ := Prod.mk.inj heq
  split
  · rfl
  · rw [ending?, apply_ite (Option.map _)]
    rfl
  · rename_i hbrace hpattern
    rw [ending?.eq_3 _ hbrace hpattern]
    rfl

/-- Without a question mark the end comes at once. -/
theorem variableEnd?_of_ne {s : Text} (h : ∀ rest, s ≠ .char '?' :: rest) :
    variableEnd? s = ending? s := by
  unfold variableEnd? ending?
  split
  rename_i heq
  split at heq
  · rename_i rest
    exact absurd rfl (h rest)
  · obtain ⟨rfl, rfl⟩ := Prod.mk.inj heq
    rfl

/-- What may follow the name of a variable: a question mark or none, and an end. -/
theorem variableEnd?_eq_some_iff (s ending : Text) :
    variableEnd? s = some ending ↔ ∃ mark t, (mark = [] ∨ mark = ofString "?") ∧ IsEnding t ∧
      ending = mark ++ t ∧ ending <+: s := by
  -- A question mark at this place is always taken as the mark.
  by_cases hmark : ∃ rest, s = .char '?' :: rest
  · obtain ⟨rest, rfl⟩ := hmark
    rw [variableEnd?_mark, Option.map_eq_some_iff]
    constructor
    · rintro ⟨t, ht, rfl⟩
      obtain ⟨hend, hprefix⟩ := (ending?_eq_some_iff rest t).mp ht
      exact ⟨_, t, .inr rfl, hend, rfl, (List.prefix_append_right_inj _).mpr hprefix⟩
    · rintro ⟨mark, t, rfl | rfl, hend, rfl, hprefix⟩
      · -- No end starts with a question mark.
        cases hend with
        | brace => simp [ofString] at hprefix
        | pattern => simp [ofString] at hprefix
      · refine ⟨t, (ending?_eq_some_iff rest t).mpr ⟨hend, ?_⟩, rfl⟩
        exact (List.prefix_append_right_inj (ofString "?")).mp hprefix
  · rw [variableEnd?_of_ne fun rest h => hmark ⟨rest, h⟩, ending?_eq_some_iff]
    constructor
    · rintro ⟨hend, hprefix⟩
      exact ⟨[], ending, .inl rfl, hend, rfl, hprefix⟩
    · rintro ⟨mark, t, rfl | rfl, hend, rfl, rest, rfl⟩
      · exact ⟨hend, rest, rfl⟩
      · exact absurd ⟨_, rfl⟩ hmark

/-- An end starts with a character that no name has. -/
theorem isWord_head_ending {mark t : Text} (hmark : mark = [] ∨ mark = ofString "?")
    (h : IsEnding t) : ∃ c cs, mark ++ t = c :: cs ∧ isWord c = false := by
  rcases hmark with rfl | rfl
  · cases h with
    | brace => exact ⟨_, _, rfl, by decide⟩
    | pattern => exact ⟨_, _, rfl, by decide⟩
  · exact ⟨_, _, rfl, by decide⟩

/-- A variable is read where one starts, and the reading takes all of it. This ties the reader to
`IsPlaceholder`. -/
theorem variableAt?_eq_some_iff (s name source : Text) :
    variableAt? s = some (name, source) ↔ IsPlaceholder name source ∧ source <+: s := by
  constructor
  · intro h
    unfold variableAt? at h
    split at h
    · rename_i rest
      dsimp only at h
      split at h
      · cases h
      · rename_i hne
        obtain ⟨ending, hending, heq⟩ := Option.map_eq_some_iff.mp h
        obtain ⟨hname, hsource⟩ := Prod.mk.inj heq
        obtain ⟨mark, t, hmark, ht, rfl, hprefix⟩ := (variableEnd?_eq_some_iff _ _).mp hending
        rw [List.append_assoc] at hsource
        have hword : ∀ c ∈ name, isWord c = true := by
          intro c hc
          rw [← hname] at hc
          exact List.mem_takeWhile_imp hc
        refine ⟨⟨by simpa [← hname] using hne, hword, mark, t, hmark, ht, ?_⟩, ?_⟩
        · rw [← hname, hsource]
        · rw [← hsource]
          refine (List.prefix_cons_inj (CodePoint.char '\x7b')).mpr ?_
          have hrest : rest = rest.takeWhile isWord ++ rest.dropWhile isWord :=
            List.takeWhile_append_dropWhile.symm
          nth_rewrite 2 [hrest]
          exact (List.prefix_append_right_inj (rest.takeWhile isWord)).mpr hprefix
    · cases h
  · rintro ⟨⟨hne, hword, mark, t, hmark, ht, rfl⟩, rest, rfl⟩
    obtain ⟨c, cs, hcons, hc⟩ := isWord_head_ending hmark ht
    -- The name ends where the end begins, which starts with no character of names.
    have htake : (name ++ (mark ++ t ++ rest)).takeWhile isWord = name := by
      rw [List.takeWhile_append_of_pos hword, hcons, List.cons_append,
        List.takeWhile_cons_of_neg (by simp [hc]), List.append_nil]
    have hdrop : (name ++ (mark ++ t ++ rest)).dropWhile isWord = mark ++ t ++ rest := by
      rw [List.dropWhile_append_of_pos hword, hcons, List.cons_append,
        List.dropWhile_cons_of_neg (by simp [hc])]
    have hs : "\x7b" ++ (name ++ (mark ++ t)) ++ rest
        = .char '\x7b' :: (name ++ (mark ++ t ++ rest)) := by
      simp [ofString]
    have hending : variableEnd? (mark ++ t ++ rest) = some (mark ++ t) :=
      (variableEnd?_eq_some_iff _ _).mpr ⟨mark, t, hmark, ht, rfl, rest, rfl⟩
    rw [hs, variableAt?, htake, hdrop, hending]
    simp [hne]

/-! ### Reading a template -/

/-- Reading that still has to skip some characters is reading what is left behind them. -/
theorem pieces_go_eq_drop (skip : Nat) (s : Text) :
    pieces.go skip s = pieces.go 0 (s.drop skip) := by
  induction skip generalizing s with
  | zero => rfl
  | succ skip ih =>
      cases s with
      | nil => rfl
      | cons c cs => exact ih cs

/-- A variable in front of a template is its first piece. -/
theorem pieces_append {name source : Text} (h : IsPlaceholder name source) (rest : Text) :
    pieces (source ++ rest) = .placeholder name source :: pieces rest := by
  have hat := (variableAt?_eq_some_iff (source ++ rest) name source).mpr ⟨h, rest, rfl⟩
  obtain ⟨-, -, mark, t, -, -, hsource⟩ := h
  obtain ⟨c, cs, rfl⟩ : ∃ c cs, source = c :: cs := ⟨_, _, hsource⟩
  rw [List.cons_append] at hat
  show pieces.go 0 (c :: (cs ++ rest)) = _
  rw [pieces.go, hat]
  dsimp only
  rw [pieces_go_eq_drop, List.length_cons, Nat.add_sub_cancel, List.drop_left]
  rfl

/-- Where no variable starts, a character is a piece of its own. -/
theorem pieces_cons {c : CodePoint} {cs : Text} (h : variableAt? (c :: cs) = none) :
    pieces (c :: cs) = .char c :: pieces cs := by
  show pieces.go 0 (c :: cs) = _
  rw [pieces.go, h]
  rfl

/-- A variable in front of a template adds its name. -/
theorem variableNames_append {name source : Text} (h : IsPlaceholder name source) (rest : Text) :
    variableNames (source ++ rest) = name :: variableNames rest := by
  rw [variableNames, pieces_append h]
  rfl

/-- Any other character adds none. -/
theorem variableNames_cons {c : CodePoint} {cs : Text} (h : variableAt? (c :: cs) = none) :
    variableNames (c :: cs) = variableNames cs := by
  rw [variableNames, pieces_cons h]
  rfl

/-- No variable starts here. -/
def StartsNone (s : Text) : Prop := ∀ name source, IsPlaceholder name source → ¬ source <+: s

/-- Nothing is read exactly where no variable starts. -/
theorem variableAt?_eq_none_iff (s : Text) : variableAt? s = none ↔ StartsNone s := by
  constructor
  · intro h name source hplace hprefix
    rw [(variableAt?_eq_some_iff _ _ _).mpr ⟨hplace, hprefix⟩] at h
    cases h
  · intro h
    by_contra hsome
    obtain ⟨⟨name, source⟩, hat⟩ := Option.ne_none_iff_exists'.mp hsome
    obtain ⟨hplace, hprefix⟩ := (variableAt?_eq_some_iff _ _ _).mp hat
    exact h name source hplace hprefix

/-- A template is read from left to right: a variable as a whole, and other characters one by
one. -/
@[elab_as_elim]
theorem reading_induction {motive : Text → Prop} (nil : motive [])
    (placeholder : ∀ name source rest, IsPlaceholder name source → motive rest →
      motive (source ++ rest))
    (char : ∀ c cs, StartsNone (c :: cs) → motive cs → motive (c :: cs)) (template : Text) :
    motive template := by
  -- On the length, as a variable takes many characters at once.
  induction hlength : template.length using Nat.strongRecOn generalizing template with
  | _ n ih =>
      subst hlength
      cases template with
      | nil => exact nil
      | cons c cs =>
          cases hat : variableAt? (c :: cs) with
          | none => exact char c cs ((variableAt?_eq_none_iff _).mp hat) (ih _ (by simp) cs rfl)
          | some found =>
              obtain ⟨name, source⟩ := found
              obtain ⟨hplace, rest, heq⟩ := (variableAt?_eq_some_iff _ _ _).mp hat
              have hlt : rest.length < (c :: cs).length := by
                obtain ⟨-, -, mark, t, -, -, rfl⟩ := hplace
                have hbrace : (ofString "\x7b").length = 1 := rfl
                rw [← heq, List.length_append, List.length_append, hbrace]
                omega
              rw [← heq]
              exact placeholder name source rest hplace (ih _ hlt rest rfl)

/-- The names that the reader finds are those of the grammar. -/
theorem mem_variableNames_iff (name template : Text) :
    name ∈ variableNames template ↔ IsVariable name template := by
  constructor
  -- The reader goes on from left to right, and so do the rules of the grammar.
  · induction template using reading_induction with
    | nil =>
        intro h
        cases h
    | placeholder other source rest hplace ih =>
        intro h
        rw [variableNames_append hplace, List.mem_cons] at h
        rcases h with rfl | h
        · exact .here hplace rest
        · exact .after hplace (ih h)
    | char c cs hnone ih =>
        intro h
        rw [variableNames_cons ((variableAt?_eq_none_iff _).mpr hnone)] at h
        exact .skip hnone (ih h)
  · intro h
    induction h with
    | here h rest =>
        rw [variableNames_append h]
        exact List.mem_cons_self
    | after h _ ih =>
        rw [variableNames_append h]
        exact List.mem_cons_of_mem _ ih
    | skip h _ ih =>
        rwa [variableNames_cons ((variableAt?_eq_none_iff _).mpr h)]

/-- A slash in front of a template has no part in its variables. -/
theorem variableNames_slash (cs : Text) : variableNames (.char '/' :: cs) = variableNames cs :=
  variableNames_cons rfl

/-- The slashes in front of a path have no variables. -/
theorem variableNames_dropWhile_slash (s : Text) :
    variableNames (s.dropWhile (· = (.char '/' : CodePoint))) = variableNames s := by
  induction s with
  | nil => rfl
  | cons c cs ih =>
      by_cases hc : c = .char '/'
      · rw [List.dropWhile_cons_of_pos (by simp [hc]), ih, hc, variableNames_slash]
      · rw [List.dropWhile_cons_of_neg (by simp [hc])]

/-- The path of an operation has the variables of the address: all that changes is the slashes in
front, which become one. -/
theorem variableNames_pathKey (e : Endpoint) :
    variableNames (Document.pathKey e) = variableNames e.uri :=
  (variableNames_slash _).trans (variableNames_dropWhile_slash e.uri)

end Template

/-! ### The parameters of a route -/

namespace Endpoint

open Tag

variable {σ : Type} [RandomSource σ] {now : Moment}

/-- The tag names the parameter: its own, or a property of it if it is a composition. -/
def NamesParameter (tag : AnnotationTag) (name : Text) : Prop :=
  ∃ p, parseParameter tag.name tag.content = .ok p ∧
    if p.name = compositionName then
      ∃ property ∈ p.properties.getD [], Check.text? property.1 = some name
    else p.name = name

/-- A query tag of the route names the parameter. -/
def QueryNames (r : Route) (name : Text) : Prop :=
  ∃ tag ∈ r.tags, tag.name = "queryParam" ∧ NamesParameter tag name

/-- A path parameter, as it is made for a variable and the handler's argument of that name. -/
def IsPathParameter (arguments : List (Text × Argument)) (p : Parameter) : Prop :=
  p.location = "path" ∧ p.required = true ∧
    ∃ a, Entries.get? p.name arguments = some a ∧ p.type = normalizeType (a.type.getD [])

/-- An entry with a parameter of a tag: it is sent in this way, and its key spells its name. -/
def IsTagParameter (location : Text) (e : Scalar × Parameter) : Prop :=
  e.2.location = location ∧ Check.text? e.1 = some e.2.name

/-- The path parameters are those of the variables, under their names. -/
theorem outcome_pathParameters {arguments : List (Text × Argument)} {title : Text}
    {names : List Text} {s : σ} {ps : List (Scalar × Parameter)}
    (h : (pathParameters now arguments title names).outcome s = .ok ps) :
    (∀ e ∈ ps, e.1 = .str e.2.name ∧ IsPathParameter arguments e.2) ∧
      ∀ name, (∃ e ∈ ps, e.2.name = name) ↔ name ∈ names := by
  induction names generalizing s ps with
  | nil =>
      cases h
      simp
  | cons name names ih =>
      rw [pathParameters] at h
      split at h
      · cases h
      · rename_i a ha
        obtain ⟨p, hp, h⟩ := Synth.outcome_bind_eq_ok_iff.mp h
        obtain ⟨others, hothers, h⟩ := Synth.outcome_bind_eq_ok_iff.mp h
        obtain ⟨value, -, hp⟩ := Synth.outcome_bind_eq_ok_iff.mp hp
        cases h
        cases hp
        obtain ⟨hothers, hnames⟩ := ih hothers
        refine ⟨List.forall_mem_cons.mpr ⟨⟨rfl, rfl, rfl, a, ha, rfl⟩, hothers⟩, fun other => ?_⟩
        rw [List.exists_mem_cons_iff, hnames, List.mem_cons]
        exact or_congr_left eq_comm

/-- The parameter of a property stands under the name of the property, and is sent as the
tag says. -/
theorem outcome_ofProperty {tag location : Text} {name : Scalar} {node : Value} {s : σ}
    {e : Scalar × Parameter} (h : (ofProperty now tag location name node).outcome s = .ok e) :
    e.1 = name ∧ IsTagParameter location e := by
  obtain ⟨schema, -, h⟩ := Synth.outcome_bind_eq_ok_iff.mp h
  obtain ⟨nested, -, h⟩ := Synth.outcome_bind_eq_ok_iff.mp h
  obtain ⟨type, -, h⟩ := Synth.outcome_bind_eq_ok_iff.mp h
  -- The value is given or made up, and then the key is looked at.
  cases hexample : Entries.get? (.str "example") schema
  all_goals
    rw [hexample] at h
    obtain ⟨⟨value, nested⟩, -, h⟩ := Synth.outcome_bind_eq_ok_iff.mp h
    obtain ⟨description, -, h⟩ := Synth.outcome_bind_eq_ok_iff.mp h
    split at h
    · cases h
    · rename_i hname
      cases h
      exact ⟨rfl, rfl, hname⟩

/-- The parameters of properties are those that their keys name. -/
theorem outcome_ofProperties {tag location : Text} {properties : Properties} {s : σ}
    {ps : List (Scalar × Parameter)}
    (h : (ofProperties now tag location properties).outcome s = .ok ps) :
    (∀ e ∈ ps, IsTagParameter location e) ∧
      ∀ name, (∃ e ∈ ps, e.2.name = name)
        ↔ ∃ property ∈ properties, Check.text? property.1 = some name := by
  induction properties generalizing s ps with
  | nil =>
      cases h
      simp
  | cons property properties ih =>
      obtain ⟨e, he, h⟩ := Synth.outcome_bind_eq_ok_iff.mp h
      obtain ⟨others, hothers, h⟩ := Synth.outcome_bind_eq_ok_iff.mp h
      cases h
      obtain ⟨hkey, he⟩ := outcome_ofProperty he
      obtain ⟨hothers, hnames⟩ := ih hothers
      refine ⟨List.forall_mem_cons.mpr ⟨he, hothers⟩, fun name => ?_⟩
      rw [List.exists_mem_cons_iff, List.exists_mem_cons_iff, hnames, ← hkey, he.2, Option.some_inj]

/-- The parameters of a tag are those that it names. -/
theorem outcome_ofTag {location : Text} {tag : AnnotationTag} {s : σ}
    {ps : List (Scalar × Parameter)} (h : (ofTag now location tag).outcome s = .ok ps) :
    (∀ e ∈ ps, IsTagParameter location e) ∧
      ∀ name, (∃ e ∈ ps, e.2.name = name) ↔ NamesParameter tag name := by
  obtain ⟨p, hp, h⟩ := Synth.outcome_bind_eq_ok_iff.mp h
  rw [Synth.outcome_lift] at hp
  have hnames : ∀ name, NamesParameter tag name ↔
      if p.name = compositionName then
        ∃ property ∈ p.properties.getD [], Check.text? property.1 = some name
      else p.name = name := by
    intro name
    simp [NamesParameter, hp]
  simp only [hnames]
  -- A composition names the properties of its block, and any other tag names itself.
  split at h
  · rename_i hall
    simp only [if_pos hall]
    exact outcome_ofProperties h
  · rename_i hall
    simp only [if_neg hall]
    split at h
    all_goals
      obtain ⟨⟨value, properties⟩, -, h⟩ := Synth.outcome_bind_eq_ok_iff.mp h
      cases h
      simp [IsTagParameter, Check.text?]

/-- The parameters of the tags with a name are those that these tags name. -/
theorem outcome_tagParameters {tagName location : Text} {tags : List AnnotationTag} {s : σ}
    {ps : List (Scalar × Parameter)}
    (h : (tagParameters now tagName location tags).outcome s = .ok ps) :
    (∀ e ∈ ps, IsTagParameter location e) ∧
      ∀ name, (∃ e ∈ ps, e.2.name = name)
        ↔ ∃ tag ∈ tags, tag.name = tagName ∧ NamesParameter tag name := by
  induction tags generalizing s ps with
  | nil =>
      cases h
      simp
  | cons tag tags ih =>
      rw [tagParameters] at h
      split at h
      -- A tag with the name adds its parameters in front of those of the later tags.
      · rename_i htag
        obtain ⟨first, hfirst, h⟩ := Synth.outcome_bind_eq_ok_iff.mp h
        obtain ⟨others, hothers, h⟩ := Synth.outcome_bind_eq_ok_iff.mp h
        cases h
        obtain ⟨hfirst, hfirstNames⟩ := outcome_ofTag hfirst
        obtain ⟨hothers, hotherNames⟩ := ih hothers
        refine ⟨fun e he => ?_, fun name => ?_⟩
        · exact (List.mem_append.mp he).elim (hfirst e) (hothers e)
        · simp only [List.mem_append, or_and_right, exists_or, hfirstNames, hotherNames,
            List.exists_mem_cons_iff, htag, true_and]
      · rename_i htag
        obtain ⟨hothers, hotherNames⟩ := ih h
        refine ⟨hothers, fun name => ?_⟩
        rw [hotherNames]
        simp [htag]

/-! ### Parameters by name -/

/-- Parameters under what their keys are compared by. -/
def keyed (ps : List (Scalar × Parameter)) : List (Key × Parameter) :=
  ps.map fun e => (e.1.key, e.2)

/-- The text that a key spells. -/
def keyText? : Key → Option Text
  | .scalar s => Check.text? s
  | .instant _ => none

/-- A key that is a name spells it. -/
theorem keyText?_key {k : Scalar} {name : Text} (h : Check.text? k = some name) :
    keyText? k.key = some name := by
  cases k with
  | str s => exact h
  | bytes b => exact h
  | _ => cases h

/-- Parameters by name are entered twice: under what their keys are compared by, and then under
their names. -/
theorem byName_eq (ps : List (Scalar × Parameter)) :
    byName ps = Entries.ofList ((Entries.ofList (keyed ps)).map fun e => (e.2.name, e.2)) := by
  rw [keyed, ← Entries.map_key_ofList, List.map_map]
  rfl

section

variable {path query : List (Scalar × Parameter)}
  (hpath : ∀ e ∈ path, e.1 = .str e.2.name)
  (hquery : ∀ e ∈ query, Check.text? e.1 = some e.2.name)

include hpath hquery

/-- The keys of the parameters of an endpoint spell their names. -/
theorem keyText?_of_mem {e : Key × Parameter} (h : e ∈ keyed (path ++ query)) :
    keyText? e.1 = some e.2.name := by
  obtain ⟨entry, hentry, rfl⟩ := List.mem_map.mp h
  refine keyText?_key ?_
  rcases List.mem_append.mp hentry with hentry | hentry
  · rw [hpath entry hentry]
    rfl
  · exact hquery entry hentry

/-- Under every name there is a parameter of that name. -/
theorem exists_get?_byName {e : Scalar × Parameter} (h : e ∈ path ++ query) :
    ∃ p, Entries.get? e.2.name (byName (path ++ query)) = some p := by
  obtain ⟨p, hp⟩ := Entries.exists_get?_ofList (List.mem_map_of_mem h : _ ∈ keyed (path ++ query))
  have hmem := (Entries.mem_ofList_iff ..).mpr hp
  have hname : p.name = e.2.name := by
    have hkey := keyText?_of_mem hpath hquery (Entries.mem_of_get?_ofList hp)
    rw [keyText?_of_mem hpath hquery (List.mem_map_of_mem h)] at hkey
    exact (Option.some.inj hkey).symm
  rw [byName_eq, ← hname]
  exact Entries.exists_get?_ofList
    (List.mem_map_of_mem hmem (f := fun e : Key × Parameter => (e.2.name, e.2)))

omit hpath hquery in
/-- What is found under a name has it, and was written. -/
theorem exists_mem_of_get?_byName {ps : List (Scalar × Parameter)} {name : Text} {p : Parameter}
    (h : Entries.get? name (byName ps) = some p) : p.name = name ∧ ∃ e ∈ ps, e.2 = p := by
  rw [byName_eq] at h
  obtain ⟨⟨k, q⟩, hmem, heq⟩ := List.mem_map.mp (Entries.mem_of_get?_ofList h)
  obtain ⟨rfl, rfl⟩ := Prod.mk.inj heq
  obtain ⟨e, he, heq⟩ := List.mem_map.mp
    (Entries.mem_of_get?_ofList ((Entries.mem_ofList_iff ..).mp hmem))
  exact ⟨rfl, e, he, (Prod.mk.inj heq).2⟩

/-- In front stand the places of path parameters, where query parameters of the same text may have
been written, and behind them other query parameters. -/
theorem exists_parts_keyed : ∃ kept added,
    Entries.ofList (keyed (path ++ query)) = kept ++ added ∧
      (∀ e ∈ kept, e.1 = .scalar (.str e.2.name)) ∧ ∀ e ∈ added, e ∈ keyed query := by
  obtain ⟨kept, added, heq, hkeys, hadded⟩ :=
    Entries.exists_insertAll_eq_append (Entries.ofList (keyed path)) (keyed query)
  have hall : Entries.ofList (keyed (path ++ query)) = kept ++ added := by
    rw [← heq, keyed, List.map_append]
    exact Entries.insertAll_append ..
  refine ⟨kept, added, hall, fun e he => ?_, hadded⟩
  -- The keys in front are those of path parameters, and these are texts.
  have htext : ∃ s, e.1 = .scalar (.str s) := by
    have hk : e.1 ∈ (keyed path).map Prod.fst := by
      rw [← List.mem_eraseDups, ← Entries.keys_ofList, ← hkeys]
      exact List.mem_map_of_mem he
    obtain ⟨k, hk, hkey⟩ := List.mem_map.mp hk
    obtain ⟨entry, hentry, rfl⟩ := List.mem_map.mp hk
    exact ⟨_, by rw [← hkey, hpath entry hentry]; rfl⟩
  obtain ⟨s, hs⟩ := htext
  have hmem : e ∈ Entries.ofList (keyed (path ++ query)) := hall ▸ List.mem_append_left _ he
  have hname := keyText?_of_mem hpath hquery
    (Entries.mem_of_get?_ofList ((Entries.mem_ofList_iff ..).mp hmem))
  rw [hs] at hname ⊢
  rw [Option.some.inj hname]

/-- What stands under the key of a query parameter, among all parameters, is a query parameter of
its name. -/
theorem exists_get?_of_mem_query {e : Scalar × Parameter} (he : e ∈ query) :
    ∃ p, Entries.get? e.1.key (Entries.ofList (keyed (path ++ query))) = some p ∧
      p.name = e.2.name ∧ ∃ entry ∈ query, entry.2 = p := by
  have hkeyed : (e.1.key, e.2) ∈ keyed query := List.mem_map_of_mem he
  obtain ⟨p, hp⟩ := Entries.exists_get?_ofList hkeyed
  have hget : Entries.get? e.1.key (Entries.ofList (keyed (path ++ query))) = some p := by
    rw [keyed, List.map_append, Entries.ofList, Entries.insertAll_append, Entries.get?_insertAll]
    exact (congrArg (Option.or · _) hp).trans (Option.some_or ..)
  obtain ⟨entry, hentry, heq⟩ := List.mem_map.mp (Entries.mem_of_get?_ofList hp)
  refine ⟨p, hget, ?_, entry, hentry, (Prod.mk.inj heq).2⟩
  have hkey := keyText?_of_mem hpath hquery (Entries.mem_of_get?_ofList hget)
  rw [keyText?_key (hquery e he)] at hkey
  exact (Option.some.inj hkey).symm

/-- A query parameter takes the place of a path parameter of the same name. Its key may be the
bytes of the name: then it stands behind the path parameter, and counts when the keys become
texts. -/
theorem mem_query_of_get?_byName {name : Text} {p : Parameter}
    (hp : Entries.get? name (byName (path ++ query)) = some p)
    (hnamed : ∃ e ∈ query, e.2.name = name) : ∃ e ∈ query, e.2 = p := by
  obtain ⟨kept, added, hall, hkept, hadded⟩ := exists_parts_keyed hpath hquery
  rw [byName_eq, hall, List.map_append, Entries.ofList, Entries.insertAll_append,
    Entries.get?_insertAll] at hp
  cases hlast : Entries.get? name (Entries.ofList (added.map fun e => (e.2.name, e.2))) with
  | some q =>
      rw [hlast, Option.some_or] at hp
      obtain rfl := Option.some.inj hp
      obtain ⟨e, he, hq⟩ := List.mem_map.mp (Entries.mem_of_get?_ofList hlast)
      obtain ⟨entry, hentry, rfl⟩ := List.mem_map.mp (hadded e he)
      exact ⟨entry, hentry, (Prod.mk.inj hq).2⟩
  | none =>
      rw [hlast, Option.none_or] at hp
      obtain ⟨⟨k, q⟩, hmem, hq⟩ := List.mem_map.mp (Entries.mem_of_get?_ofList hp)
      obtain ⟨rfl, rfl⟩ := Prod.mk.inj hq
      -- The query parameter of that name is not behind, so it has been written to this place.
      obtain ⟨e, he, hname⟩ := hnamed
      obtain ⟨w, hget, hwname, hwquery⟩ := exists_get?_of_mem_query hpath hquery he
      replace hwname : w.name = q.name := hwname.trans hname
      have hwkept : (e.1.key, w) ∈ kept := by
        have hwmem := (Entries.mem_ofList_iff ..).mpr hget
        rw [hall] at hwmem
        refine (List.mem_append.mp hwmem).resolve_right fun hwadded => ?_
        obtain ⟨v, hv⟩ := Entries.exists_get?_ofList
          (List.mem_map_of_mem hwadded (f := fun e : Key × Parameter => (e.2.name, e.2)))
        rw [show _ = _ from hwname, hlast] at hv
        cases hv
      have hkeys : e.1.key = k := by
        have hfirst : e.1.key = .scalar (.str w.name) := hkept _ hwkept
        have hsecond : k = .scalar (.str q.name) := hkept _ hmem
        rw [hfirst, hsecond, hwname]
      have hqget : Entries.get? k (Entries.ofList (keyed (path ++ query))) = some q := by
        rw [← Entries.mem_ofList_iff, hall]
        exact List.mem_append_left _ hmem
      rw [← hkeys, hget] at hqget
      obtain rfl := Option.some.inj hqget
      exact hwquery

end

/-! ### The endpoint of a route -/

/-- The endpoint has a path parameter for the variable, with the type of the handler's argument of
that name, which is the last one if there are several. -/
def HasVariable (r : Route) (e : Endpoint) (name : Text) : Prop :=
  ∃ p a, Entries.get? name e.parameters = some p ∧ p.name = name ∧ p.location = "path" ∧
    p.required = true ∧ (r.arguments.filter (·.name = name)).getLast? = some a ∧
    p.type = normalizeType (a.type.getD [])

/-- Of several arguments with one name the last is found. -/
theorem get?_arguments (arguments : List Argument) (name : Text) :
    Entries.get? name (Entries.ofList (arguments.map fun a => (a.name, a)))
      = (arguments.filter (·.name = name)).getLast? := by
  rw [Entries.get?_ofList, List.filter_map, List.getLast?_map, Option.map_map]
  simp only [Function.comp_def, beq_eq_decide, Option.map_id']

/-- What the parameters of an endpoint are made of. -/
theorem exists_parameters_of_ofRoute {defaultGroup : Text} {r : Route} {s : σ} {e : Endpoint}
    (h : (ofRoute now defaultGroup r).outcome s = .ok (some e)) :
    ∃ path query, e.parameters = byName (path ++ query) ∧ e.uri = r.uri ∧
      (∀ entry ∈ path, entry.1 = .str entry.2.name ∧ IsPathParameter
        (Entries.ofList (r.arguments.map fun a => (a.name, a))) entry.2) ∧
      (∀ name, (∃ entry ∈ path, entry.2.name = name) ↔ Template.IsVariable name r.uri) ∧
      (∀ entry ∈ query, IsTagParameter "query" entry) ∧
      ∀ name, (∃ entry ∈ query, entry.2.name = name) ↔ QueryNames r name := by
  rw [ofRoute] at h
  split at h
  · cases h
  -- All parts of the endpoint have been built; only those with parameters matter.
  · obtain ⟨path, hpath, h⟩ := Synth.outcome_bind_eq_ok_iff.mp h
    obtain ⟨query, hquery, h⟩ := Synth.outcome_bind_eq_ok_iff.mp h
    obtain ⟨id, -, h⟩ := Synth.outcome_bind_eq_ok_iff.mp h
    obtain ⟨body, -, h⟩ := Synth.outcome_bind_eq_ok_iff.mp h
    obtain ⟨responses, -, h⟩ := Synth.outcome_bind_eq_ok_iff.mp h
    cases h
    obtain ⟨hpath, hvariables⟩ := outcome_pathParameters hpath
    obtain ⟨hquery, hnames⟩ := outcome_tagParameters hquery
    simp only [Template.mem_variableNames_iff] at hvariables
    exact ⟨path, query, rfl, rfl, hpath, hvariables, hquery, hnames⟩

/-- A variable stays a path parameter exactly if no query tag names it. -/
theorem hasVariable_iff {defaultGroup : Text} {r : Route} {s : σ} {e : Endpoint}
    (h : (ofRoute now defaultGroup r).outcome s = .ok (some e)) {name : Text}
    (hname : Template.IsVariable name r.uri) :
    (HasVariable r e name ↔ ¬ QueryNames r name) ∧
      (QueryNames r name → ∀ p, Entries.get? name e.parameters = some p → p.location = "query") := by
  obtain ⟨path, query, hparameters, -, hpath, hvariables, hquery, hnames⟩ :=
    exists_parameters_of_ofRoute h
  have hkeys : ∀ entry ∈ path, entry.1 = .str entry.2.name :=
    fun entry hentry => (hpath entry hentry).1
  have htexts : ∀ entry ∈ query, Check.text? entry.1 = some entry.2.name :=
    fun entry hentry => (hquery entry hentry).2
  have htaken : QueryNames r name →
      ∀ p, Entries.get? name e.parameters = some p → p.location = "query" := by
    intro hquoted p hp
    rw [hparameters] at hp
    obtain ⟨entry, hentry, rfl⟩ :=
      mem_query_of_get?_byName hkeys htexts hp ((hnames name).mpr hquoted)
    exact (hquery entry hentry).1
  refine ⟨⟨?_, ?_⟩, htaken⟩
  · rintro ⟨p, a, hp, -, hlocation, -⟩ hquoted
    rw [htaken hquoted p hp] at hlocation
    exact absurd hlocation (by decide)
  · intro hfree
    obtain ⟨entry, hentry, rfl⟩ := (hvariables name).mpr hname
    obtain ⟨p, hp⟩ := exists_get?_byName hkeys htexts (List.mem_append_left query hentry)
    obtain ⟨hpname, found, hfound, rfl⟩ := exists_mem_of_get?_byName hp
    -- Under the name stands what was written last, and no query parameter has the name.
    rw [List.mem_append] at hfound
    have hfound : found ∈ path :=
      hfound.resolve_right fun hmem => hfree ((hnames _).mp ⟨found, hmem, hpname⟩)
    obtain ⟨-, hlocation, hrequired, a, ha, htype⟩ := hpath found hfound
    rw [get?_arguments, hpname] at ha
    exact ⟨found.2, a, hparameters ▸ hp, hpname, hlocation, hrequired, ha, htype⟩

end Endpoint

namespace Document

open Endpoint

/-- The operation declares a path parameter of the name, which has to be given. -/
def Declares (op : Value) (name : Text) : Prop :=
  ∃ ps, op.get? "parameters" = some (.list ps) ∧
    ∃ p ∈ ps, p.get? "in" = some (.str "path") ∧ p.get? "name" = some (.str name) ∧
      p.get? "required" = some (.bool true)

/-- The operation lists the parameters of the endpoint, those of the body apart. -/
theorem get?_parameters_of_operation {settings : Settings} {plan : CodeSample.Plan} {e : Endpoint}
    {group method : Text} {isFirst : Bool} {op : Value}
    (h : operation settings plan group e method isFirst = .ok op) :
    op.get? "parameters" = some (.list
      (((e.parameters.map (·.2)).filter fun p => p.location ≠ ("body" : Text)).map parameter)) := by
  obtain ⟨shown, -, h⟩ := exists_of_bind_eq_ok h
  obtain rfl := Except.ok.inj h
  simp [Value.get?, Value.object, Entries.get?, ofString]

/-- An operation declares the path parameters of its endpoint. -/
theorem declares_iff_of_operation {settings : Settings} {plan : CodeSample.Plan} {e : Endpoint}
    {group method : Text} {isFirst : Bool} {op : Value}
    (h : operation settings plan group e method isFirst = .ok op) (name : Text) :
    Declares op name ↔ ∃ entry ∈ e.parameters, entry.2.location = "path" ∧ entry.2.name = name ∧
      entry.2.required = true := by
  -- The three fields of a shown parameter that a reader looks at.
  have hparameter : ∀ p : Parameter, (parameter p).get? "in" = some (.str p.location) ∧
      (parameter p).get? "name" = some (.str p.name) ∧
      (parameter p).get? "required" = some (.bool p.required) := by
    intro p
    simp [parameter, Value.get?, Value.object, Entries.get?, ofString]
  have hshown := get?_parameters_of_operation h
  constructor
  · rintro ⟨ps, hps, v, hv, hin, hname, hrequired⟩
    rw [hshown] at hps
    obtain rfl := Value.list.inj (Option.some.inj hps)
    obtain ⟨p, hp, rfl⟩ := List.mem_map.mp hv
    obtain ⟨entry, hentry, rfl⟩ := List.mem_map.mp (List.mem_filter.mp hp).1
    rw [(hparameter entry.2).1] at hin
    rw [(hparameter entry.2).2.1] at hname
    rw [(hparameter entry.2).2.2] at hrequired
    simp only [Option.some.injEq, Value.scalar.injEq, Scalar.str.injEq, Scalar.bool.injEq]
      at hin hname hrequired
    exact ⟨entry, hentry, hin, hname, hrequired⟩
  · rintro ⟨entry, hentry, hlocation, hname, hrequired⟩
    refine ⟨_, hshown, parameter entry.2, ?_, ?_, ?_, ?_⟩
    · refine List.mem_map_of_mem (List.mem_filter.mpr ⟨List.mem_map_of_mem hentry, ?_⟩)
      rw [hlocation]
      decide
    · rw [(hparameter entry.2).1, hlocation]
    · rw [(hparameter entry.2).2.1, hname]
    · rw [(hparameter entry.2).2.2, hrequired]

section

variable {σ : Type} [RandomSource σ] {now : Moment} {defaultGroup : Text} {r : Route} {s : σ}
  {e : Endpoint}

/-- The operation declares a variable as a path parameter exactly if the endpoint has one for it. -/
theorem declares_iff_hasVariable (h : (ofRoute now defaultGroup r).outcome s = .ok (some e))
    {settings : Settings} {plan : CodeSample.Plan} {group method : Text} {isFirst : Bool}
    {op : Value}
    (hop : operation settings plan group e method isFirst = .ok op) {name : Text}
    (hname : Template.IsVariable name r.uri) : Declares op name ↔ HasVariable r e name := by
  have hvariable := hasVariable_iff h hname
  have hget : ∀ entry ∈ e.parameters, Entries.get? entry.2.name e.parameters = some entry.2 := by
    obtain ⟨path, query, hparameters, -⟩ := exists_parameters_of_ofRoute h
    rintro ⟨n, p⟩ hentry
    rw [hparameters] at hentry ⊢
    have hfound := (Entries.mem_ofList_iff ..).mp hentry
    rwa [← (exists_mem_of_get?_byName hfound).1] at hfound
  rw [declares_iff_of_operation hop]
  constructor
  · rintro ⟨entry, hentry, hlocation, rfl, -⟩
    refine hvariable.1.mpr fun hquoted => ?_
    rw [hvariable.2 hquoted _ (hget entry hentry)] at hlocation
    exact absurd hlocation (by decide)
  · rintro ⟨p, a, hp, hpname, hlocation, hrequired, -⟩
    obtain ⟨k, hmem, -⟩ := Entries.exists_mem_of_get? hp
    exact ⟨_, hmem, hlocation, hpname, hrequired⟩

/-- Every variable of a documented route has its path parameter, with the type of the handler's
argument, exactly if no query tag names it. And so it is in every document: an operation of the
endpoint declares exactly these variables of its path. -/
theorem pathVariables_iff (h : (ofRoute now defaultGroup r).outcome s = .ok (some e)) :
    (∀ name, Template.IsVariable name r.uri → (HasVariable r e name ↔ ¬ QueryNames r name)) ∧
      ∀ settings plan es doc path method op, assemble settings plan es [] = .ok doc →
        OperationAt doc path method op →
        ((grouped es).filter (Answers path method)).getLast? = some e →
        ∀ name, Template.IsVariable name path → (Declares op name ↔ ¬ QueryNames r name) := by
  refine ⟨fun name hname => (hasVariable_iff h hname).1, ?_⟩
  intro settings plan es doc path method op hdoc hop hlast name hname
  obtain ⟨f, earlier, m, later, hlast', -, -, -, hbuilt, -⟩ := isLastOperation_of_assemble hdoc hop
  obtain rfl := Option.some.inj (hlast'.symm.trans hlast)
  -- The path is that of the route, but for the slashes in front.
  have hpath : pathKey f = path := by
    have hanswers := List.mem_of_getLast? hlast
    rw [List.mem_filter, decide_eq_true_eq] at hanswers
    exact hanswers.2.1
  obtain ⟨-, -, -, huri, -⟩ := exists_parameters_of_ofRoute h
  have hname' : Template.IsVariable name r.uri := by
    rwa [← hpath, ← Template.mem_variableNames_iff, Template.variableNames_pathKey, huri,
      Template.mem_variableNames_iff] at hname
  rw [declares_iff_hasVariable h hbuilt hname', (hasVariable_iff h hname').1]

end

/-- A clock to document by. -/
def lookupClock : Moment := ⟨⟨2024, 5, 17⟩, 12, 0, 0, 0, some 0⟩

/-- A route with a variable that a query tag names too. -/
def lookupRoute : Route :=
  { uri := "users/\x7bid\x7d"
    methods := ["GET"]
    handler := "Users@show"
    tags := [{ name := "queryParam", content := "id string Example: x" }]
    arguments := [{ name := "id", type := some "int" }] }

/-- Its endpoint. -/
def lookupEndpoint (id : Text) : Endpoint :=
  { id := id
    group := "users"
    title := "show"
    description := []
    methods := ["GET"]
    uri := "users/\x7bid\x7d"
    parameters := [("id", { name := "id", location := "query", value := .str "x" })]
    bodyParameters := []
    authenticated := false
    responses := [] }

/-- The route is documented. -/
theorem ofRoute_lookupRoute : ∃ id,
    (ofRoute lookupClock "users" lookupRoute).outcome (Congruential.ofSeed 0)
      = .ok (some (lookupEndpoint id)) := ⟨_, rfl⟩

/-- The variable of this route is named by a query tag, so no operation of its endpoint
declares it. -/
theorem pathVariables_iff_lookupRoute : ∃ e,
    (ofRoute lookupClock "users" lookupRoute).outcome (Congruential.ofSeed 0) = .ok (some e) ∧
      (∀ name, Template.IsVariable name lookupRoute.uri →
        (HasVariable lookupRoute e name ↔ ¬ QueryNames lookupRoute name)) ∧
      ∀ settings plan es doc path method op, assemble settings plan es [] = .ok doc →
        OperationAt doc path method op →
        ((grouped es).filter (Answers path method)).getLast? = some e →
        ∀ name, Template.IsVariable name path → (Declares op name ↔ ¬ QueryNames lookupRoute name) := by
  obtain ⟨id, hid⟩ := ofRoute_lookupRoute
  exact ⟨_, hid, pathVariables_iff hid⟩

/-- The variable of the route has no path parameter, and its operation declares none. -/
theorem not_hasVariable_lookupRoute : Template.IsVariable "id" lookupRoute.uri ∧ ∃ e doc op,
    (ofRoute lookupClock "users" lookupRoute).outcome (Congruential.ofSeed 0) = .ok (some e) ∧
      ¬ HasVariable lookupRoute e "id" ∧
      assemble {} .empty [e] [] = .ok doc ∧ OperationAt doc "/users/\x7bid\x7d" "get" op ∧
      ¬ Declares op "id" := by
  obtain ⟨id, hid⟩ := ofRoute_lookupRoute
  obtain ⟨doc, op, hdoc, hop⟩ : ∃ doc op,
      assemble {} .empty [lookupEndpoint id] [] = .ok doc ∧
        OperationAt doc "/users/\x7bid\x7d" "get" op := ⟨_, _, rfl, _, _, rfl, rfl, rfl⟩
  refine ⟨(Template.mem_variableNames_iff _ _).mp (by decide), lookupEndpoint id, doc, op, hid, ?_,
    hdoc, hop, ?_⟩
  · rintro ⟨p, a, hp, -, hlocation, -⟩
    obtain rfl := Option.some.inj hp
    exact absurd hlocation (by decide)
  · obtain ⟨e, earlier, m, later, hlast, -, -, -, hbuilt, -⟩ := isLastOperation_of_assemble hdoc hop
    obtain rfl : lookupEndpoint id = e := Option.some.inj hlast
    rw [declares_iff_of_operation hbuilt]
    rintro ⟨entry, hentry, hlocation, -⟩
    obtain rfl := List.mem_singleton.mp hentry
    exact absurd hlocation (by decide)

end Document

end RouteDocs
