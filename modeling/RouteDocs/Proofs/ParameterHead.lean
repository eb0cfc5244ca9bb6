import RouteDocs.Proofs.ParameterText

/-!
# `RouteDocs.Proofs.ParameterHead`: a parameter text is cut where its grammar cuts it

The grammar of parameter tags is given as a regular expression, with a rule for texts of two words
and one for a marker that ends the text (`specifiedHead`). The reader takes one word after another
instead. `splitParameter_grammar` says what that makes of every text, and that it agrees with the
grammar on every text that is trimmed.

Regular expressions are read by backtracking here: `Pattern.ways` lists the matches in their order
of preference, and the first of them counts. All the pieces of the expression are greedy, and the
last of them takes whatever there is. So the first way through each piece goes on to the end, and
a match is put together from one match for each piece (`Pattern.match?_andThen`).
-/

set_option autoImplicit false

namespace RouteDocs.Tag

open Text

/-! ### Regular expressions -/

/-- A regular expression. -/
inductive Pattern where
  /-- This very text. -/
  | literal (text : Text)
  /-- A run of at least so many characters of a class, the longer the better. -/
  | run (least : Nat) (accepts : CodePoint → Bool)
  /-- One expression and then another. -/
  | andThen (first second : Pattern)
  /-- An expression that is better matched than left out. -/
  | optional (body : Pattern)
  /-- An expression whose text is captured. -/
  | group (body : Pattern)
  /-- The end, or the line feed at the end. -/
  | atEnd

/-- A match at the start of a text. -/
structure Match where
  /-- The text that is matched. -/
  taken : Text
  /-- What each group captures, if it takes part. -/
  groups : List (Option Text)
  /-- The text behind the match. -/
  rest : Text
deriving DecidableEq

namespace Pattern

/-- How many groups there are. -/
def groupCount : Pattern → Nat
  | .literal _ | .run _ _ | .atEnd => 0
  | .andThen first second => first.groupCount + second.groupCount
  | .optional body => body.groupCount
  | .group body => body.groupCount + 1

/-- All matches at the start of a text, better ones first. -/
def ways : Pattern → Text → List Match
  | .literal text, s => (dropStart? text s).toList.map fun rest => ⟨text, [], rest⟩
  | .run least accepts, s =>
    let lengths := (List.range ((s.takeWhile accepts).length + 1)).filter (least ≤ ·)
    lengths.reverse.map fun n => ⟨s.take n, [], s.drop n⟩
  | .andThen first second, s =>
    (first.ways s).flatMap fun m =>
      (second.ways m.rest).map fun n => ⟨m.taken ++ n.taken, m.groups ++ n.groups, n.rest⟩
  | .optional body, s => body.ways s ++ [⟨[], List.replicate body.groupCount none, s⟩]
  | .group body, s => (body.ways s).map fun m => ⟨m.taken, some m.taken :: m.groups, m.rest⟩
  | .atEnd, s => if s = "" ∨ s = "\n" then [⟨[], [], s⟩] else []

/-- The match that counts. -/
def match? (p : Pattern) (s : Text) : Option Match := (p.ways s).head?

variable {p q : Pattern} {s : Text} {m n : Match}

/-- A literal matches a text that starts with it. -/
theorem match?_literal_append (text rest : Text) :
    (literal text).match? (text ++ rest) = some ⟨text, [], rest⟩ := by
  rw [match?, ways, dropStart?_append]
  rfl

/-- A run is as long as it can be. -/
theorem match?_run {least : Nat} {accepts : CodePoint → Bool}
    (h : least ≤ (s.takeWhile accepts).length) :
    (run least accepts).match? s = some ⟨s.takeWhile accepts, [], s.dropWhile accepts⟩ := by
  have htake : s.take (s.takeWhile accepts).length = s.takeWhile accepts :=
    (List.prefix_iff_eq_take.mp (List.takeWhile_prefix accepts)).symm
  have hdrop : s.drop (s.takeWhile accepts).length = s.dropWhile accepts := by
    have hleft : (s.takeWhile accepts ++ s.dropWhile accepts).drop (s.takeWhile accepts).length
        = s.dropWhile accepts := List.drop_left
    rwa [List.takeWhile_append_dropWhile] at hleft
  -- The longest run is the last length that is listed, so it is tried first.
  have hlongest : (List.range ((s.takeWhile accepts).length + 1)).filter (least ≤ ·)
      = (List.range (s.takeWhile accepts).length).filter (least ≤ ·)
        ++ [(s.takeWhile accepts).length] := by
    rw [List.range_succ, List.filter_append, List.filter_cons_of_pos (by simpa using h)]
    rfl
  rw [match?, ways, hlongest, List.reverse_append]
  show some (⟨_, [], _⟩ : Match) = _
  rw [htake, hdrop]

/-- A run does not match where there are too few characters of its kind. -/
theorem match?_run_eq_none {least : Nat} {accepts : CodePoint → Bool}
    (h : (s.takeWhile accepts).length < least) : (run least accepts).match? s = none := by
  have hlengths : (List.range ((s.takeWhile accepts).length + 1)).filter (least ≤ ·) = [] := by
    simp only [List.filter_eq_nil_iff, List.mem_range, decide_eq_true_eq]
    omega
  rw [match?, ways, hlengths]
  rfl

/-- Where the best match of one expression is followed by a match of the next, nothing else is
tried. -/
theorem match?_andThen (hp : p.match? s = some m) (hq : q.match? m.rest = some n) :
    (p.andThen q).match? s = some ⟨m.taken ++ n.taken, m.groups ++ n.groups, n.rest⟩ := by
  obtain ⟨others, hways⟩ := List.head?_eq_some_iff.mp hp
  obtain ⟨others', hways'⟩ := List.head?_eq_some_iff.mp hq
  rw [match?, ways, hways, List.flatMap_cons, hways']
  rfl

/-- A group matches as what is in it, and remembers the match. -/
theorem match?_group (h : p.match? s = some m) :
    (group p).match? s = some ⟨m.taken, some m.taken :: m.groups, m.rest⟩ := by
  obtain ⟨others, hways⟩ := List.head?_eq_some_iff.mp h
  rw [match?, ways, hways]
  rfl

/-- What may be left out is taken where it matches. -/
theorem match?_optional (h : p.match? s = some m) : (optional p).match? s = some m := by
  obtain ⟨others, hways⟩ := List.head?_eq_some_iff.mp h
  rw [match?, ways, hways]
  rfl

/-- Where it does not match it is left out, with its groups empty. -/
theorem match?_optional_of_none (h : p.match? s = none) :
    (optional p).match? s = some ⟨[], List.replicate p.groupCount none, s⟩ := by
  rw [match?, ways, List.head?_eq_none_iff.mp h]
  rfl

end Pattern

/-! ### The grammar -/

/-- The marker of a required parameter, with blanks behind it. -/
def markerPattern : Pattern :=
  .group (.andThen (.literal requiredMarker) (.run 1 isBlank))

/-- The expression for a parameter text: a name, a type, perhaps the marker, and anything. -/
def headPattern : Pattern :=
  .andThen (.group (.run 1 (!isBlank ·))) <| .andThen (.run 1 isBlank) <|
    .andThen (.group (.run 1 (!isBlank ·))) <| .andThen (.run 1 isBlank) <|
      .andThen (.optional markerPattern) <| .andThen (.group (.run 0 fun _ => true)) .atEnd

/-- The parts that the groups stand for. A description that is nothing but the marker is taken for
the marker if there was none. -/
def ParameterHead.ofGroups? : List (Option Text) → Option ParameterHead
  | [some name, some type, none, some description] =>
    if description = requiredMarker then some ⟨name, type, true, []⟩
    else some ⟨name, type, false, description⟩
  | [some name, some type, some marker, some description] =>
    some ⟨name, type, trim marker == requiredMarker, description⟩
  | _ => none

/-- The parts of a parameter text by the grammar. Two words are a name and a type, and a longer
text is left to the expression. -/
def specifiedHead (tag text : Text) : Except Error ParameterHead :=
  match words text with
  | [] | [_] => .error (.malformedTag tag (.tooFewWords text))
  | [name, type] => .ok ⟨name, type, false, []⟩
  | _ =>
    match (headPattern.match? text).bind fun m => ParameterHead.ofGroups? m.groups with
    | some head => .ok head
    | none => .error (.malformedTag tag (.tooFewWords text))

/-- The words that are taken off a text in front of its description. -/
def ParameterHead.consumed (head : ParameterHead) : List Text :=
  head.name :: head.type :: if head.required then [requiredMarker] else []

/-- What the parts of a text are to it. -/
structure ParameterHead.IsHeadOf (head : ParameterHead) (text : Text) : Prop where
  /-- The words of the parts are the words of the text. -/
  words_eq : words text = head.consumed ++ words head.description
  /-- The third word is the marker if and only if the parameter is required. -/
  required_iff : head.required = true ↔ (words text)[2]? = some requiredMarker
  /-- The description is what stands behind the last word in front of it, without the blanks
  around. -/
  description_eq : ∃ start rest, text = start ++ rest ∧ words start = head.consumed ∧
    (∀ c, start.getLast? = some c → isBlank c = false) ∧
    (∀ c, rest.head? = some c → isBlank c = true) ∧ head.description = trim rest

/-! ### One word after another -/

/-- A text whose first word is `word`, with `rest` behind it. -/
structure BeginsWith (text word rest : Text) : Prop where
  /-- There are only blanks in front of the word. -/
  text_eq : ∃ blanks, (∀ c ∈ blanks, isBlank c = true) ∧ text = blanks ++ (word ++ rest)
  /-- It is a word. -/
  isWord : IsWord word
  /-- It goes no further. -/
  apart : ∀ c, rest.head? = some c → isBlank c = true

namespace BeginsWith

variable {text word rest : Text}

/-- The first word is the first of the words, and the others are those of the rest. -/
theorem words_eq (h : BeginsWith text word rest) : words text = word :: words rest := by
  obtain ⟨⟨blanks, hblanks, rfl⟩, hword, hapart⟩ := h
  have hfront : words (blanks ++ (word ++ rest)) = words (word ++ rest) := by
    rw [← words_trimStart, trimStart_append_of_blank hblanks, words_trimStart]
  rw [hfront]
  cases rest with
  | nil =>
      rw [List.append_nil, words, splitWhere_eq_singleton hword.2,
        List.filter_cons_of_pos (by simpa using hword.1)]
      rfl
  | cons b rest =>
      have hb : isBlank b = true := hapart b rfl
      rw [words_append hword hb, ← words_trimStart (b :: rest), trimStart_cons_blank hb,
        words_trimStart]

/-- From the first word on, the text has no blank before that word ends. -/
theorem takeWhile_eq (h : BeginsWith text word rest) :
    (word ++ rest).takeWhile (!isBlank ·) = word := by
  have hpos : ∀ c ∈ word, (!isBlank c) = true := by
    intro c hc
    rw [h.isWord.2 c hc]
    rfl
  rw [List.takeWhile_append_of_pos hpos]
  cases rest with
  | nil => rw [List.takeWhile_nil, List.append_nil]
  | cons b rest => rw [List.takeWhile_cons_of_neg (by simp [h.apart b rfl]), List.append_nil]

/-- Behind the first word the rest begins. -/
theorem dropWhile_eq (h : BeginsWith text word rest) :
    (word ++ rest).dropWhile (!isBlank ·) = rest := by
  have hparts : (word ++ rest).takeWhile (!isBlank ·) ++ (word ++ rest).dropWhile (!isBlank ·)
      = word ++ rest := List.takeWhile_append_dropWhile
  rw [h.takeWhile_eq] at hparts
  exact List.append_cancel_left hparts

/-- Without the blanks in front the text is the word and the rest. -/
theorem trimStart_eq (h : BeginsWith text word rest) : trimStart text = word ++ rest := by
  obtain ⟨blanks, hblanks, rfl⟩ := h.text_eq
  rw [trimStart_append_of_blank hblanks,
    trimStart_append (trimStart_of_trim h.isWord.trim_eq) h.isWord.1]

/-- The rest is the end of the text. -/
theorem rest_suffix (h : BeginsWith text word rest) : rest <:+ text := by
  obtain ⟨blanks, -, rfl⟩ := h.text_eq
  exact ⟨blanks ++ word, by simp⟩

/-- Taking a word gives the first word, and the rest without its blanks in front. -/
theorem takeToken_eq (h : BeginsWith text word rest) : takeToken text = (word, trimStart rest) := by
  rw [takeToken, h.trimStart_eq, h.takeWhile_eq, h.dropWhile_eq]

end BeginsWith

/-- A text that is not blank begins with a word. -/
theorem exists_beginsWith {text : Text} (h : trimStart text ≠ []) :
    ∃ word rest, BeginsWith text word rest := by
  obtain ⟨blanks, htext, hblanks⟩ := eq_append_trimStart text
  obtain ⟨c, cs, hcons⟩ := List.exists_cons_of_ne_nil h
  have hc : isBlank c = false := isBlank_of_trimStart (hcons ▸ trimStart_trimStart text)
  refine ⟨(trimStart text).takeWhile (!isBlank ·), (trimStart text).dropWhile (!isBlank ·),
    ⟨blanks, hblanks, ?_⟩, ⟨?_, ?_⟩, ?_⟩
  · rw [List.takeWhile_append_dropWhile]
    exact htext
  · rw [hcons, List.takeWhile_cons_of_pos (by simp [hc])]
    exact List.cons_ne_nil c _
  · intro d hd
    simpa using List.mem_takeWhile_imp hd
  · intro d hd
    have hnot := List.head?_dropWhile_not (!isBlank ·) (trimStart text)
    rw [hd] at hnot
    simpa using hnot

/-- A text without words has only blanks. -/
theorem trimStart_eq_nil_of_words {text : Text} (h : words text = []) : trimStart text = [] := by
  by_contra hne
  obtain ⟨word, rest, hbegins⟩ := exists_beginsWith hne
  rw [hbegins.words_eq] at h
  exact nomatch h

/-- A text with a first word begins with it. -/
theorem exists_of_words_eq_cons {text word : Text} {others : List Text}
    (h : words text = word :: others) :
    ∃ rest, BeginsWith text word rest ∧ words rest = others := by
  have hne : trimStart text ≠ [] := by
    intro hnil
    rw [← words_trimStart, hnil] at h
    exact nomatch h
  obtain ⟨word', rest, hbegins⟩ := exists_beginsWith hne
  rw [hbegins.words_eq] at h
  obtain ⟨rfl, rfl⟩ := List.cons.inj h
  exact ⟨rest, hbegins, rfl⟩

/-- The text up to the end of its first word, with what stands in front of it. -/
theorem BeginsWith.exists_start {text word rest : Text} (h : BeginsWith text word rest)
    {front : Text} (hfront : front = [] ∨ ∀ c, text.head? = some c → isBlank c = true) :
    ∃ start, front ++ text = start ++ rest ∧ words start = words front ++ [word] ∧
      ∀ c, start.getLast? = some c → isBlank c = false := by
  obtain ⟨⟨blanks, hblanks, rfl⟩, hword, -⟩ := h
  have hend : ∀ between : Text, (∀ c ∈ between, isBlank c = true) →
      words (between ++ word) = [word] := by
    intro between hbetween
    have hbegins : BeginsWith (between ++ word) word [] :=
      ⟨⟨between, hbetween, by rw [List.append_nil]⟩, hword, nofun⟩
    exact hbegins.words_eq
  -- The word does not run into the one in front of it: between them is a blank.
  refine ⟨front ++ (blanks ++ word), by simp, ?_, ?_⟩
  · obtain rfl | hfront := hfront
    · exact hend blanks hblanks
    · cases blanks with
      | nil =>
          obtain ⟨c, cs, rfl⟩ := List.exists_cons_of_ne_nil hword.1
          have hc := hfront c rfl
          rw [hword.2 c List.mem_cons_self] at hc
          exact nomatch hc
      | cons b blanks =>
          rw [List.forall_mem_cons] at hblanks
          rw [List.cons_append, words_append_cons hblanks.1, hend blanks hblanks.2]
  · intro c hc
    rw [← List.append_assoc, List.getLast?_append_of_ne_nil _ hword.1] at hc
    exact hword.2 c (List.mem_of_getLast? hc)

variable {text name type r₀ r₁ : Text}

/-- The reader takes two words and looks at a third. -/
theorem splitParameter_eq (tag : Text) (h₀ : BeginsWith text name r₀) (h₁ : BeginsWith r₀ type r₁) :
    splitParameter tag text
      = .ok ⟨name, type, (takeToken r₁).1 == requiredMarker,
          trim (if (takeToken r₁).1 == requiredMarker then (takeToken r₁).2 else r₁)⟩ := by
  have hcount : ¬ (words text).length < 2 := by
    rw [h₀.words_eq, h₁.words_eq, List.length_cons, List.length_cons]
    omega
  rw [splitParameter, if_neg hcount, h₀.takeToken_eq]
  simp only [takeToken_trimStart, h₁.takeToken_eq]
  split
  · rfl
  · rw [trim_trimStart]

/-- A parameter text with the marker as its third word: what is left behind it is the
description. -/
theorem splitParameter_marked (tag : Text) {r₂ : Text} (h₀ : BeginsWith text name r₀)
    (h₁ : BeginsWith r₀ type r₁) (h₂ : BeginsWith r₁ requiredMarker r₂) :
    splitParameter tag text = .ok ⟨name, type, true, trim r₂⟩ := by
  rw [splitParameter_eq tag h₀ h₁, h₂.takeToken_eq, beq_self_eq_true, if_pos rfl, trim_trimStart]

/-- A parameter text with something else as its third word, or with none: all that is left behind
the type is the description. -/
theorem splitParameter_unmarked (tag : Text) (h₀ : BeginsWith text name r₀)
    (h₁ : BeginsWith r₀ type r₁) (h : (words r₁).head? ≠ some requiredMarker) :
    splitParameter tag text = .ok ⟨name, type, false, trim r₁⟩ := by
  have hnot : ((takeToken r₁).1 == requiredMarker) = false := by
    rw [beq_eq_false_iff_ne]
    -- The token that is looked at is the third word, or empty if there is none.
    cases hwords : words r₁ with
    | nil =>
        rw [takeToken, trimStart_eq_nil_of_words hwords]
        decide
    | cons word others =>
        obtain ⟨rest, hbegins, -⟩ := exists_of_words_eq_cons hwords
        rw [hbegins.takeToken_eq]
        rw [hwords] at h
        intro heq
        exact h (congrArg some heq)
  rw [splitParameter_eq tag h₀ h₁, hnot, if_neg Bool.false_ne_true]

/-- From two words on, a parameter text has parts. -/
theorem exists_isHeadOf (tag : Text) {others : List Text}
    (h : words text = name :: type :: others) :
    ∃ head, splitParameter tag text = .ok head ∧ head.IsHeadOf text := by
  obtain ⟨r₀, h₀, hwords₀⟩ := exists_of_words_eq_cons h
  obtain ⟨r₁, h₁, hwords₁⟩ := exists_of_words_eq_cons hwords₀
  obtain ⟨start₀, htext₀, hstart₀, -⟩ := h₀.exists_start (.inl rfl)
  obtain ⟨start₁, htext₁, hstart₁, hlast₁⟩ := h₁.exists_start (.inr h₀.apart)
  rw [List.nil_append] at htext₀
  rw [← htext₀] at htext₁
  rw [hstart₀] at hstart₁
  -- What is consumed ends with the marker if there is one, and else with the type.
  by_cases hmarker : (words r₁).head? = some requiredMarker
  · obtain ⟨rest, hwords⟩ := List.head?_eq_some_iff.mp hmarker
    obtain ⟨r₂, h₂, hwords₂⟩ := exists_of_words_eq_cons hwords
    obtain ⟨start₂, htext₂, hstart₂, hlast₂⟩ := h₂.exists_start (.inr h₁.apart)
    rw [← htext₁] at htext₂
    rw [hstart₁] at hstart₂
    refine ⟨_, splitParameter_marked tag h₀ h₁ h₂, ?_, ?_, start₂, r₂, htext₂, hstart₂, hlast₂,
      h₂.apart, rfl⟩
    · rw [h₀.words_eq, h₁.words_eq, h₂.words_eq, words_trim]
      rfl
    · rw [h₀.words_eq, h₁.words_eq, h₂.words_eq]
      exact iff_of_true rfl rfl
  · refine ⟨_, splitParameter_unmarked tag h₀ h₁ hmarker, ?_, ?_, start₁, r₁, htext₁, hstart₁,
      hlast₁, h₁.apart, rfl⟩
    · rw [h₀.words_eq, h₁.words_eq, words_trim]
      rfl
    · rw [h₀.words_eq, h₁.words_eq]
      rw [List.head?_eq_getElem?] at hmarker
      exact iff_of_false nofun hmarker

/-! ### The expression on a trimmed text -/

namespace BeginsWith

variable {word rest : Text}

/-- The group for a word takes the first word of a text. -/
theorem match?_word (h : BeginsWith text word rest) :
    (Pattern.group (.run 1 (!isBlank ·))).match? (trimStart text)
      = some ⟨word, [some word], rest⟩ := by
  have hlength : 1 ≤ ((word ++ rest).takeWhile (!isBlank ·)).length := by
    rw [h.takeWhile_eq]
    exact List.length_pos_of_ne_nil h.isWord.1
  have hrun := Pattern.match?_run hlength
  rw [h.takeWhile_eq, h.dropWhile_eq] at hrun
  rw [h.trimStart_eq]
  exact Pattern.match?_group hrun

/-- Behind a word the blanks up to the next word are taken. -/
theorem match?_blanks (h : BeginsWith text word rest) (hne : rest ≠ []) :
    (Pattern.run 1 isBlank).match? rest = some ⟨rest.takeWhile isBlank, [], trimStart rest⟩ := by
  refine Pattern.match?_run ?_
  obtain ⟨b, bs, rfl⟩ := List.exists_cons_of_ne_nil hne
  rw [List.takeWhile_cons_of_pos (h.apart b rfl), List.length_cons]
  omega

/-- The expression for the marker takes it with the blanks behind it, when something follows. -/
theorem match?_marker (h : BeginsWith text requiredMarker rest) (hne : rest ≠ []) :
    markerPattern.match? (trimStart text)
      = some ⟨requiredMarker ++ rest.takeWhile isBlank,
          [some (requiredMarker ++ rest.takeWhile isBlank)], trimStart rest⟩ := by
  rw [h.trimStart_eq]
  exact Pattern.match?_group
    (Pattern.match?_andThen (Pattern.match?_literal_append _ rest) (h.match?_blanks hne))

/-- No other word is taken for the marker, nor is the marker at the end. -/
theorem match?_marker_eq_none (h : BeginsWith text word rest)
    (hnot : word ≠ requiredMarker ∨ rest = []) : markerPattern.match? (trimStart text) = none := by
  rw [h.trimStart_eq]
  cases hdrop : dropStart? requiredMarker (word ++ rest) with
  | none => rw [markerPattern, Pattern.match?, Pattern.ways, Pattern.ways, Pattern.ways, hdrop]; rfl
  | some behind =>
      have heq : word ++ rest = requiredMarker ++ behind := eq_append_of_dropStart? hdrop
      -- A blank behind the marker would end the word there.
      have hblanks : (behind.takeWhile isBlank).length < 1 := by
        cases behind with
        | nil => decide
        | cons b behind =>
            cases hb : isBlank b with
            | false => rw [List.takeWhile_cons_of_neg (by simp [hb])]; decide
            | true =>
                have hmarker : BeginsWith (requiredMarker ++ b :: behind) requiredMarker
                    (b :: behind) :=
                  ⟨⟨[], nofun, rfl⟩, isWord_requiredMarker, by simpa using hb⟩
                have hword : word = requiredMarker := by
                  rw [← h.takeWhile_eq, heq, hmarker.takeWhile_eq]
                rw [hword] at heq
                rw [List.append_cancel_left heq] at hnot
                obtain hne | hnil := hnot
                · exact absurd hword hne
                · exact nomatch hnil
      have hnone : (Pattern.run 1 isBlank).ways behind = [] :=
        List.head?_eq_none_iff.mp (Pattern.match?_run_eq_none hblanks)
      rw [markerPattern, Pattern.match?, Pattern.ways, Pattern.ways, Pattern.ways, hdrop]
      simp only [Option.toList_some, List.map_cons, List.map_nil, List.flatMap_cons, hnone,
        List.flatMap_nil, List.append_nil, List.head?_nil]

end BeginsWith

/-- The end of a trimmed text is trimmed, apart from the blanks in front of it. -/
theorem trim_suffix (htrim : trim text = text) {rest : Text} (h : rest <:+ text) :
    trim rest = trimStart rest := by
  obtain ⟨front, rfl⟩ : trimStart rest <:+ text := (List.dropWhile_suffix isBlank).trans h
  have hend := List.rdropWhile_eq_self_iff.mp (trimEnd_of_trim htrim)
  refine List.rdropWhile_eq_self_iff.mpr fun hne => ?_
  have hlast := hend (List.append_ne_nil_of_right_ne_nil front hne)
  rwa [List.getLast_append_of_ne_nil _ hne] at hlast

/-- What is behind the second word of a trimmed text is looked through for the marker. -/
theorem exists_match?_headPattern (htrim : trim text = text) (h₀ : BeginsWith text name r₀)
    (h₁ : BeginsWith r₀ type r₁) (hne : r₁ ≠ []) {m : Match}
    (hm : (Pattern.optional markerPattern).match? (trimStart r₁) = some m) :
    ∃ whole, headPattern.match? text = some whole ∧
      whole.groups = some name :: some type :: (m.groups ++ [some m.rest]) := by
  have hne₀ : r₀ ≠ [] := by
    rintro rfl
    exact nomatch h₁.words_eq
  -- The last group takes all that is left, so the end is reached and nothing is tried again.
  have hrun : (Pattern.run 0 fun _ => true).match? m.rest
      = some ⟨m.rest.takeWhile (fun _ => true), [], m.rest.dropWhile (fun _ => true)⟩ :=
    Pattern.match?_run (Nat.zero_le _)
  have htake : m.rest.takeWhile (fun _ => true) = m.rest := by simp
  have hdrop : m.rest.dropWhile (fun _ => true) = [] := by simp
  rw [htake, hdrop] at hrun
  have hend : Pattern.atEnd.match? [] = some ⟨[], [], []⟩ := rfl
  have hword₀ := h₀.match?_word
  rw [trimStart_of_trim htrim] at hword₀
  have hmatch := Pattern.match?_andThen hword₀ <|
    Pattern.match?_andThen (h₀.match?_blanks hne₀) <|
    Pattern.match?_andThen h₁.match?_word <|
    Pattern.match?_andThen (h₁.match?_blanks hne) <|
    Pattern.match?_andThen hm <|
    Pattern.match?_andThen (Pattern.match?_group hrun) hend
  exact ⟨_, hmatch, rfl⟩

/-- The marker is captured with blanks behind it. -/
theorem trim_append_blanks {word : Text} (hword : IsWord word) {blanks : Text}
    (hblanks : ∀ c ∈ blanks, isBlank c = true) : trim (word ++ blanks) = word := by
  have hend : trimEnd (word ++ blanks) = trimEnd word := by
    rw [trimEnd, dropEndWhile, List.reverse_append, List.dropWhile_append_of_pos]
    · rfl
    · simpa using hblanks
  rw [trim, trimStart_append (trimStart_of_trim hword.trim_eq) hword.1, hend,
    trimEnd_of_trim hword.trim_eq]

/-- From three words on, the parts are those of the groups. -/
theorem specifiedHead_eq_ok (tag : Text) (htrim : trim text = text) {word r₂ : Text}
    (h₀ : BeginsWith text name r₀) (h₁ : BeginsWith r₀ type r₁) (h₂ : BeginsWith r₁ word r₂)
    {m : Match} (hm : (Pattern.optional markerPattern).match? (trimStart r₁) = some m)
    {head : ParameterHead}
    (hhead : ParameterHead.ofGroups? (some name :: some type :: (m.groups ++ [some m.rest]))
      = some head) : specifiedHead tag text = .ok head := by
  have hne : r₁ ≠ [] := by
    rintro rfl
    exact List.cons_ne_nil word (words r₂) h₂.words_eq.symm
  obtain ⟨whole, hwhole, hgroups⟩ := exists_match?_headPattern htrim h₀ h₁ hne hm
  rw [specifiedHead, h₀.words_eq, h₁.words_eq, h₂.words_eq]
  simp only [hwhole, Option.bind_some, hgroups, hhead]

/-- The marker is a group of its own, if something comes behind it. -/
theorem specifiedHead_marked (tag : Text) (htrim : trim text = text) {r₂ : Text}
    (h₀ : BeginsWith text name r₀) (h₁ : BeginsWith r₀ type r₁)
    (h₂ : BeginsWith r₁ requiredMarker r₂) (hne₂ : r₂ ≠ []) :
    specifiedHead tag text = .ok ⟨name, type, true, trimStart r₂⟩ := by
  refine specifiedHead_eq_ok tag htrim h₀ h₁ h₂
    (Pattern.match?_optional (h₂.match?_marker hne₂)) ?_
  have hcaptured : trim (requiredMarker ++ r₂.takeWhile isBlank) = requiredMarker :=
    trim_append_blanks isWord_requiredMarker fun c => List.mem_takeWhile_imp
  simp only [List.cons_append, List.nil_append, ParameterHead.ofGroups?, hcaptured,
    beq_self_eq_true]

/-- Otherwise the description begins with the third word, and may be the marker alone. -/
theorem specifiedHead_unmarked (tag : Text) (htrim : trim text = text) {word r₂ : Text}
    (h₀ : BeginsWith text name r₀) (h₁ : BeginsWith r₀ type r₁) (h₂ : BeginsWith r₁ word r₂)
    (hnot : word ≠ requiredMarker ∨ r₂ = []) :
    specifiedHead tag text = .ok (if word ++ r₂ = requiredMarker then ⟨name, type, true, []⟩
      else ⟨name, type, false, word ++ r₂⟩) := by
  refine specifiedHead_eq_ok tag htrim h₀ h₁ h₂
    (Pattern.match?_optional_of_none (h₂.match?_marker_eq_none hnot)) ?_
  have hgroup : List.replicate markerPattern.groupCount (none : Option Text) = [none] := rfl
  simp only [hgroup, List.cons_append, List.nil_append, ParameterHead.ofGroups?, h₂.trimStart_eq]
  split
  · rfl
  · rfl

/-- On a trimmed text the reader and the grammar agree. -/
theorem splitParameter_eq_specifiedHead (tag : Text) (htrim : trim text = text) :
    splitParameter tag text = specifiedHead tag text := by
  cases hwords : words text with
  | nil => rw [specifiedHead, splitParameter, hwords]; rfl
  | cons name others =>
    cases others with
    | nil => rw [specifiedHead, splitParameter, hwords]; rfl
    | cons type others =>
        obtain ⟨r₀, h₀, hwords₀⟩ := exists_of_words_eq_cons hwords
        obtain ⟨r₁, h₁, hwords₁⟩ := exists_of_words_eq_cons hwords₀
        have hsuffix := h₁.rest_suffix.trans h₀.rest_suffix
        cases others with
        | nil =>
            have hunmarked : (words r₁).head? ≠ some requiredMarker := by
              rw [hwords₁]
              simp
            rw [splitParameter_unmarked tag h₀ h₁ hunmarked, trim,
              trimStart_eq_nil_of_words hwords₁, specifiedHead, hwords]
            rfl
        | cons word others =>
            obtain ⟨r₂, h₂, -⟩ := exists_of_words_eq_cons hwords₁
            by_cases hword : word = requiredMarker
            · subst hword
              rw [splitParameter_marked tag h₀ h₁ h₂]
              -- At the end of the text the expression takes the marker for a description.
              by_cases hnil : r₂ = []
              · subst hnil
                rw [specifiedHead_unmarked tag htrim h₀ h₁ h₂ (.inr rfl), List.append_nil,
                  if_pos rfl]
                rfl
              · rw [specifiedHead_marked tag htrim h₀ h₁ h₂ hnil,
                  trim_suffix htrim (h₂.rest_suffix.trans hsuffix)]
            · have hunmarked : (words r₁).head? ≠ some requiredMarker := by
                rw [hwords₁]
                intro heq
                exact hword (Option.some.inj heq)
              -- A description that is the marker has the marker for its first word.
              have hother : word ++ r₂ ≠ requiredMarker := by
                intro heq
                have hfirst := h₂.takeWhile_eq
                rw [heq] at hfirst
                exact hword hfirst.symm
              rw [splitParameter_unmarked tag h₀ h₁ hunmarked,
                specifiedHead_unmarked tag htrim h₀ h₁ h₂ (.inl hword), if_neg hother,
                trim_suffix htrim hsuffix, h₂.trimStart_eq]

/-- A parameter text is malformed if and only if it has fewer than two words. From two words on it
has its parts, whatever its blanks are. Without blanks around it these are the parts that the
grammar gives. -/
theorem splitParameter_grammar (tag text : Text) :
    (splitParameter tag text = .error (.malformedTag tag (.tooFewWords text)) ↔
      (words text).length < 2) ∧
    (2 ≤ (words text).length →
      ∃ head, splitParameter tag text = .ok head ∧ head.IsHeadOf text) ∧
    (trim text = text → splitParameter tag text = specifiedHead tag text) := by
  have hparts : 2 ≤ (words text).length →
      ∃ head, splitParameter tag text = .ok head ∧ head.IsHeadOf text := by
    intro hlength
    match hwords : words text with
    | [] | [_] => simp [hwords] at hlength
    | name :: type :: others => exact exists_isHeadOf tag hwords
  refine ⟨⟨?_, ?_⟩, hparts, splitParameter_eq_specifiedHead tag⟩
  · intro h
    by_contra hlength
    obtain ⟨head, hhead, -⟩ := hparts (by omega)
    rw [hhead] at h
    exact nomatch h
  · intro hlength
    rw [splitParameter, if_pos hlength]

/-- A tab, a line feed and several spaces divide words, and the description keeps its own. -/
theorem splitParameter_grammar_blanks :
    2 ≤ (words "id\tint\nrequired  the  key\nof it").length ∧
      splitParameter "bodyParam" "id\tint\nrequired  the  key\nof it"
        = specifiedHead "bodyParam" "id\tint\nrequired  the  key\nof it" ∧
      specifiedHead "bodyParam" "id\tint\nrequired  the  key\nof it"
        = .ok ⟨"id", "int", true, "the  key\nof it"⟩ ∧
      ∃ head, splitParameter "bodyParam" "id\tint\nrequired  the  key\nof it" = .ok head ∧
        head.IsHeadOf "id\tint\nrequired  the  key\nof it" := by
  have h := splitParameter_grammar "bodyParam" "id\tint\nrequired  the  key\nof it"
  have hcount : 2 ≤ (words "id\tint\nrequired  the  key\nof it").length := by decide
  exact ⟨hcount, h.2.2 (by decide), by rfl, h.2.1 hcount⟩

end RouteDocs.Tag
