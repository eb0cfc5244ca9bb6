import RouteDocs.Proofs.ReturnTypes

/-!
# `RouteDocs.Proofs.ReturnGrammar`: which return types are accepted

A return tag should name a type by a name, by a name with brackets behind it, or by a name in a
container, which may have brackets behind it again (`IsReturnType`). The container is closed by
the partner of its opening bracket, and behind the last backslash or dot of the name there is a
segment, since that is the schema which the response refers to.

The reader takes a token apart into up to four pieces (`TypePieces`): a container word with its
opening bracket, a name, a closing bracket and a pair of brackets. Each of them but the name may
be missing, and none looks at another. So it also accepts `array<User]`, `User>` and `User.`. A
token is taken apart in one way at most (`TypePieces.text_injective`), which makes the difference
exact: `parseReturn_pieces` says for every text whether it is accepted, what comes out, and that
an accepted token is in the grammar if and only if its brackets match and its last segment is not
empty.
-/

set_option autoImplicit false

namespace RouteDocs.Tag

open Text

/-! ### The grammar -/

/-- The last segment of a name: what stands behind the last backslash or dot. -/
def IsLastSegment (last name : Text) : Prop :=
  (∀ c ∈ last, c ≠ .char '\\' ∧ c ≠ .char '.') ∧
    (name = last ∨ ∃ front c, (c = .char '\\' ∨ c = .char '.') ∧ name = front ++ c :: last)

/-- The form of a return type: a name, a list of it, or a container with brackets behind it. -/
inductive IsTypeForm (name : Text) : (token : Text) → (isList : Bool) → Prop where
  /-- A name, a name with brackets, or a name in a container. -/
  | token {token : Text} {isList : Bool} (h : IsTypeToken name token isList) :
      IsTypeForm name token isList
  /-- A name in a container, with brackets behind the container. -/
  | again {word : Text} {opening closing : CodePoint} (hword : IsContainerWord word)
      (hpair : (opening, closing) = (.char '<', .char '>') ∨
        (opening, closing) = (.char '[', .char ']')) :
      IsTypeForm name (word ++ opening :: (name ++ closing :: ofString "[]")) true

/-- A return type that refers to a schema, or to a list of it. -/
def IsReturnType (token schema : Text) (isList : Bool) : Prop :=
  ∃ name, (∀ c ∈ name, isNamePart c = true) ∧ IsLastSegment schema name ∧ schema ≠ [] ∧
    IsTypeForm name token isList

/-! ### The pieces of a token -/

/-- A token as it is taken apart. -/
structure TypePieces where
  /-- The word of a container, and the bracket behind it. -/
  container : Option (Text × CodePoint)
  /-- The name. -/
  name : Text
  /-- The bracket that closes something. -/
  closing : Option CodePoint
  /-- Whether a pair of brackets stands at the end. -/
  brackets : Bool

namespace TypePieces

/-- What stands behind the name. -/
def ending (p : TypePieces) : Text :=
  p.closing.toList ++ if p.brackets then ofString "[]" else []

/-- The token that the pieces make. -/
def text (p : TypePieces) : Text :=
  match p.container with
  | none => p.name ++ p.ending
  | some (word, opening) => word ++ opening :: (p.name ++ p.ending)

/-- Whether the pieces stand for a list. -/
def isList (p : TypePieces) : Bool := p.container.isSome || p.brackets

/-- Pieces that a token may be taken apart into. -/
structure AreTaken (p : TypePieces) : Prop where
  /-- The container is one of the words, and a bracket opens it. -/
  container : ∀ word opening, p.container = some (word, opening) →
    IsContainerWord word ∧ (opening = .char '<' ∨ opening = .char '[')
  /-- There is a name. -/
  name_ne_nil : p.name ≠ []
  /-- Separators may stand anywhere in the name. -/
  name : ∀ c ∈ p.name, isNamePart c = true
  /-- Either bracket may close. -/
  closing : ∀ c, p.closing = some c → c = .char '>' ∨ c = .char ']'

/-- What is opened is closed by its partner, and nothing else is closed. -/
def IsMatched (p : TypePieces) : Prop :=
  p.closing = p.container.map fun c => if c.2 = .char '<' then .char '>' else .char ']'

variable {p q : TypePieces}

/-- There are six ways to go on behind the name. -/
theorem AreTaken.ending_cases (h : p.AreTaken) :
    (p.brackets = false ∧ (p.ending = "" ∨ p.ending = ">" ∨ p.ending = "]")) ∨
      (p.brackets = true ∧ (p.ending = "[]" ∨ p.ending = ">[]" ∨ p.ending = "][]")) := by
  obtain ⟨container, name, closing, brackets⟩ := p
  cases closing with
  | none => cases brackets <;> simp [ending, ofString]
  | some c =>
      obtain rfl | rfl := h.closing c rfl
      · cases brackets <;> simp [ending, ofString]
      · cases brackets <;> simp [ending, ofString]

/-- What stands behind the name starts with nothing that could belong to it. -/
theorem AreTaken.head?_ending (h : p.AreTaken) :
    ∀ c, p.ending.head? = some c → isNamePart c = false := by
  -- The endings are few, so they are checked for all pieces at once.
  have hnone : ∀ e ∈ [("" : Text), ">", "]", "[]", ">[]", "][]"],
      e.head?.all (fun c => !isNamePart c) = true := by
    decide
  have hmem : p.ending ∈ [("" : Text), ">", "]", "[]", ">[]", "][]"] := by
    obtain ⟨-, heq | heq | heq⟩ | ⟨-, heq | heq | heq⟩ := h.ending_cases <;> simp [heq]
  intro c hc
  simpa [hc] using hnone p.ending hmem

/-- The name and what is behind it are read as they are. -/
theorem AreTaken.nameToEnd?_eq (h : p.AreTaken) :
    nameToEnd? (p.name ++ p.ending) = some (p.name, p.brackets) := by
  rw [nameToEnd?_append h.name_ne_nil h.name h.head?_ending]
  obtain ⟨hbrackets, hending⟩ | ⟨hbrackets, hending⟩ := h.ending_cases
  · rw [if_pos hending, hbrackets]
  · have hnot : ¬ (p.ending = "" ∨ p.ending = ">" ∨ p.ending = "]") := by
      obtain heq | heq | heq := hending <;> rw [heq] <;> decide
    rw [if_neg hnot, if_pos hending, hbrackets]

/-- Without a container nothing is taken off for one: behind the brackets there is no name. -/
theorem AreTaken.bind_dropContainer?_eq (h : p.AreTaken) :
    (dropContainer? (p.name ++ p.ending)).bind nameToEnd? = none := by
  cases hdrop : dropContainer? (p.name ++ p.ending) with
  | none => rfl
  | some inner =>
      obtain ⟨c, hc, heq⟩ := eq_cons_of_dropContainer? h.name h.head?_ending hdrop
      -- An ending that begins with a bracket that opens is the pair of brackets.
      have hinner : inner = "]" := by
        have hends := h.ending_cases
        rw [heq] at hends
        obtain rfl | rfl := hc
        · simp [ofString] at hends
        · have hboth : p.brackets = true ∧ inner = "]" := by simpa [ofString] using hends
          exact hboth.2
      rw [hinner]
      rfl

/-- The token that pieces make is read as their name, and as a list if they stand for one. -/
theorem AreTaken.returnType?_text (h : p.AreTaken) :
    returnType? p.text = some ⟨p.name, p.isList⟩ := by
  cases hcontainer : p.container with
  | none =>
      have htext : p.text = p.name ++ p.ending := by rw [text, hcontainer]
      rw [htext, returnType?, h.bind_dropContainer?_eq, isList, hcontainer]
      show (nameToEnd? (p.name ++ p.ending)).map _ = _
      rw [h.nameToEnd?_eq]
      rfl
  | some c =>
      obtain ⟨word, opening⟩ := c
      obtain ⟨hword, hopening⟩ := h.container word opening hcontainer
      have htext : p.text = word ++ opening :: (p.name ++ p.ending) := by rw [text, hcontainer]
      rw [htext, returnType?, dropContainer?_append hword hopening, Option.bind_some,
        h.nameToEnd?_eq, isList, hcontainer]
      rfl

/-- What stands behind the name tells its pieces. -/
theorem AreTaken.ending_injective (hp : p.AreTaken) (hq : q.AreTaken) (h : p.ending = q.ending) :
    p.closing = q.closing ∧ p.brackets = q.brackets := by
  obtain ⟨container, name, closing, brackets⟩ := p
  obtain ⟨container', name', closing', brackets'⟩ := q
  have hclosing : ∀ {c : Option CodePoint}, (∀ d, c = some d → d = .char '>' ∨ d = .char ']') →
      c = none ∨ c = some (.char '>') ∨ c = some (.char ']') := by
    intro c hc
    cases c with
    | none => exact .inl rfl
    | some d => exact .inr ((hc d rfl).imp (congrArg some) (congrArg some))
  obtain rfl | rfl | rfl : closing = _ ∨ closing = _ ∨ closing = _ := hclosing hp.closing
  all_goals
    obtain rfl | rfl | rfl : closing' = _ ∨ closing' = _ ∨ closing' = _ := hclosing hq.closing
  all_goals
    -- No two of the endings are the same text.
    cases brackets <;> cases brackets' <;> simp_all [ending, ofString]

/-- It is of three characters at most. -/
theorem AreTaken.length_ending_le (h : p.AreTaken) : p.ending.length ≤ 3 := by
  obtain ⟨-, heq | heq | heq⟩ | ⟨-, heq | heq | heq⟩ := h.ending_cases
  all_goals
    rw [heq]
    decide

/-- A container is longer than all that may stand behind a name, so it is not taken for that. -/
theorem AreTaken.container_eq_none (hp : p.AreTaken) (hq : q.AreTaken) (hname : p.name = q.name)
    (h : p.text = q.text) (hnone : p.container = none) : q.container = none := by
  cases hqc : q.container with
  | none => rfl
  | some c =>
      exfalso
      have hword : 4 ≤ c.1.length := by
        obtain heq | heq | heq | heq := (hq.container c.1 c.2 hqc).1 <;> rw [heq] <;> decide
      have hlengths := congrArg List.length h
      have hshort := hp.length_ending_le
      simp only [text, hnone, hqc, hname, List.length_append, List.length_cons] at hlengths
      omega

/-- A container is known from what it stands in front of. -/
theorem container_injective {word word' inner inner' : Text} {opening opening' : CodePoint}
    (hword : IsContainerWord word) (hword' : IsContainerWord word')
    (hopening : opening = .char '<' ∨ opening = .char '[')
    (hopening' : opening' = .char '<' ∨ opening' = .char '[')
    (h : word ++ opening :: inner = word' ++ opening' :: inner') :
    (word, opening) = (word', opening') ∧ inner = inner' := by
  have hopens : ∀ {b : CodePoint} {rest : Text}, b = .char '<' ∨ b = .char '[' →
      ∀ c, (b :: rest).head? = some c → isNamePart c = false := by
    rintro b rest hb c ⟨⟩
    exact not_isNamePart_bracket (by tauto)
  -- A word has no bracket in it, so behind its characters the bracket comes first.
  have hrest := congrArg (List.dropWhile isNamePart) h
  rw [dropWhile_isNamePart hword.isNamePart (hopens hopening),
    dropWhile_isNamePart hword'.isNamePart (hopens hopening')] at hrest
  rw [hrest, List.append_cancel_right_eq] at h
  obtain ⟨rfl, rfl⟩ := List.cons.inj hrest
  exact ⟨by rw [h], rfl⟩

/-- A token is taken apart in one way at most. -/
theorem text_injective (hp : p.AreTaken) (hq : q.AreTaken) (h : p.text = q.text) : p = q := by
  -- What is read depends on the text alone, so both have the same name.
  have hread : some (ReturnType.mk p.name p.isList) = some ⟨q.name, q.isList⟩ := by
    rw [← hp.returnType?_text, ← hq.returnType?_text, h]
  have hname : p.name = q.name := (ReturnType.mk.inj (Option.some.inj hread)).1
  have hends : p.container = q.container ∧ p.ending = q.ending := by
    cases hpc : p.container with
    | none =>
        have hqc := hp.container_eq_none hq hname h hpc
        simp only [text, hpc, hqc, hname, List.append_cancel_left_eq] at h
        exact ⟨hqc.symm, h⟩
    | some c =>
        cases hqc : q.container with
        | none =>
            rw [hq.container_eq_none hp hname.symm h.symm hqc] at hpc
            cases hpc
        | some d =>
            obtain ⟨hword, hopening⟩ := hp.container c.1 c.2 hpc
            obtain ⟨hword', hopening'⟩ := hq.container d.1 d.2 hqc
            simp only [text, hpc, hqc, hname] at h
            obtain ⟨hsame, hinner⟩ := container_injective hword hword' hopening hopening' h
            exact ⟨congrArg some hsame, List.append_cancel_left hinner⟩
  obtain ⟨hclosing, hbrackets⟩ := hp.ending_injective hq hends.2
  obtain ⟨container, name, closing, brackets⟩ := p
  obtain ⟨container', name', closing', brackets'⟩ := q
  obtain ⟨rfl, rfl, rfl, rfl⟩ : container = container' ∧ name = name' ∧ closing = closing' ∧
      brackets = brackets' := ⟨hends.1, hname, hclosing, hbrackets⟩
  rfl

end TypePieces

variable {name token last : Text} {isList : Bool}

/-! ### What the reader takes -/

/-- A name up to the end of a token has one of the six endings behind it. -/
theorem exists_of_nameToEnd? {brackets : Bool} (h : nameToEnd? token = some (name, brackets)) :
    name ≠ [] ∧ (∀ c ∈ name, isNamePart c = true) ∧
      ∃ closing : Option CodePoint, (∀ c, closing = some c → c = .char '>' ∨ c = .char ']') ∧
        token = name ++ (closing.toList ++ if brackets then ofString "[]" else []) := by
  rw [nameToEnd?] at h
  have hsplit : token = token.takeWhile isNamePart ++ token.dropWhile isNamePart :=
    List.takeWhile_append_dropWhile.symm
  have hparts : ∀ c ∈ token.takeWhile isNamePart, isNamePart c = true :=
    fun c => List.mem_takeWhile_imp
  generalize token.takeWhile isNamePart = taken at h hsplit hparts
  generalize token.dropWhile isNamePart = rest at h hsplit
  by_cases hempty : taken.isEmpty = true
  · rw [if_pos hempty] at h
    cases h
  rw [if_neg hempty] at h
  have hne : taken ≠ [] := by simpa using hempty
  -- The reader asks for the endings in two groups, without the pair of brackets and with it. In
  -- each of them the same two characters may close.
  have hclosing : ∀ e : Text, (rest = e ∨ rest = .char '>' :: e) ∨ rest = .char ']' :: e →
      ∃ closing : Option CodePoint, (∀ c, closing = some c → c = .char '>' ∨ c = .char ']') ∧
        rest = closing.toList ++ e := by
    rintro e ((rfl | rfl) | rfl)
    · exact ⟨none, by simp, rfl⟩
    · exact ⟨some (.char '>'), by simp, rfl⟩
    · exact ⟨some (.char ']'), by simp, rfl⟩
  by_cases hone : (rest = "" ∨ rest = ">") ∨ rest = "]"
  · rw [if_pos (by simpa using hone)] at h
    obtain ⟨rfl, rfl⟩ := Prod.mk.inj (Option.some.inj h)
    obtain ⟨closing, hbracket, rfl⟩ := hclosing "" hone
    exact ⟨hne, hparts, closing, hbracket, hsplit⟩
  rw [if_neg (by simpa using hone)] at h
  by_cases htwo : (rest = "[]" ∨ rest = ">[]") ∨ rest = "][]"
  · rw [if_pos (by simpa using htwo)] at h
    obtain ⟨rfl, rfl⟩ := Prod.mk.inj (Option.some.inj h)
    obtain ⟨closing, hbracket, rfl⟩ := hclosing "[]" htwo
    exact ⟨hne, hparts, closing, hbracket, hsplit⟩
  · rw [if_neg (by simpa using htwo)] at h
    cases h

/-- Whatever is read as a type is made of pieces. -/
theorem exists_of_returnType? {type : ReturnType} (h : returnType? token = some type) :
    ∃ p : TypePieces, p.AreTaken ∧ p.text = token ∧ type = ⟨p.name, p.isList⟩ := by
  rw [returnType?] at h
  -- Without a container the token is a name, with brackets behind it or none.
  cases hinside : (dropContainer? token).bind nameToEnd? with
  | none =>
      rw [hinside] at h
      obtain ⟨⟨name, brackets⟩, hread, rfl⟩ := Option.map_eq_some_iff.mp h
      obtain ⟨hne, hname, closing, hclosing, htoken⟩ := exists_of_nameToEnd? hread
      exact ⟨⟨none, name, closing, brackets⟩, ⟨by simp, hne, hname, hclosing⟩, htoken.symm, rfl⟩
  | some r =>
      obtain ⟨name, brackets⟩ := r
      rw [hinside] at h
      obtain ⟨inner, hdrop, hread⟩ := Option.bind_eq_some_iff.mp hinside
      obtain ⟨word, opening, hword, hopening, rfl⟩ := exists_of_dropContainer? hdrop
      obtain ⟨hne, hname, closing, hclosing, hinner⟩ := exists_of_nameToEnd? hread
      refine ⟨⟨some (word, opening), name, closing, brackets⟩, ⟨?_, hne, hname, hclosing⟩, ?_,
        (Option.some.inj h).symm⟩
      · rintro _ _ ⟨⟩
        exact ⟨hword, hopening⟩
      · rw [hinner]
        rfl

/-- A token is refused if and only if no pieces make it. -/
theorem returnType?_eq_none_iff :
    returnType? token = none ↔ ∀ p : TypePieces, p.AreTaken → p.text ≠ token := by
  constructor
  · rintro h p hp rfl
    rw [hp.returnType?_text] at h
    exact nomatch h
  · intro h
    cases hread : returnType? token with
    | none => rfl
    | some type =>
        obtain ⟨p, hp, htext, -⟩ := exists_of_returnType? hread
        exact absurd htext (h p hp)

/-! ### The last segment -/

/-- The last segment of a name is the name without its qualifiers. -/
theorem IsLastSegment.eq_unqualified (h : IsLastSegment last name) : unqualified name = last := by
  obtain ⟨hlast, hname⟩ := h
  have hcut : ∀ c ∈ last, (ofString "\\.").contains c = false := by
    intro c hc
    have hne := hlast c hc
    simp [ofString, hne.1, hne.2]
  rw [unqualified]
  obtain rfl | ⟨front, c, hc, rfl⟩ := hname
  · rw [splitWhere_eq_singleton hcut]
    rfl
  · have hsep : (ofString "\\.").contains c = true := by
      obtain rfl | rfl := hc <;> decide
    rw [splitWhere_append_cons hsep, splitWhere_eq_singleton hcut, List.getLast?_concat]
    rfl

/-- Every name has a last segment, which may be empty. -/
theorem exists_isLastSegment (name : Text) : ∃ last, IsLastSegment last name := by
  -- A separator at the front counts only if there is none behind it.
  induction name with
  | nil => exact ⟨[], by simp, .inl rfl⟩
  | cons c name ih =>
      obtain ⟨last, hlast, rfl | ⟨front, d, hd, rfl⟩⟩ := ih
      · by_cases hc : c = .char '\\' ∨ c = .char '.'
        · exact ⟨name, hlast, .inr ⟨[], c, hc, rfl⟩⟩
        · rw [not_or] at hc
          exact ⟨c :: name, List.forall_mem_cons.mpr ⟨hc, hlast⟩, .inl rfl⟩
      · exact ⟨last, hlast, .inr ⟨c :: front, d, hd, rfl⟩⟩

/-- A name with a last segment is not empty. -/
theorem IsLastSegment.ne_nil (h : IsLastSegment last name) (hne : last ≠ []) : name ≠ [] := by
  obtain ⟨-, rfl | ⟨front, c, -, rfl⟩⟩ := h
  · exact hne
  · simp

/-! ### The tokens of the grammar -/

/-- A return type is made of pieces that match. -/
theorem IsReturnType.exists_pieces (h : IsReturnType token last isList) :
    last ≠ [] ∧ ∃ p : TypePieces, p.AreTaken ∧ p.text = token ∧ p.isList = isList ∧
      IsLastSegment last p.name ∧ p.IsMatched := by
  obtain ⟨name, hname, hlast, hne, hform⟩ := h
  have hnonempty := hlast.ne_nil hne
  -- A container fits together whether or not the pair of brackets stands behind it.
  have hopens : ∀ {word : Text} {opening closing : CodePoint} (brackets : Bool),
      IsContainerWord word → (opening, closing) = (.char '<', .char '>') ∨
        (opening, closing) = (.char '[', .char ']') →
      (TypePieces.mk (some (word, opening)) name (some closing) brackets).AreTaken ∧
        (TypePieces.mk (some (word, opening)) name (some closing) brackets).IsMatched := by
    intro word opening closing brackets hword hpair
    obtain ⟨rfl, rfl⟩ | ⟨rfl, rfl⟩ := hpair.imp Prod.mk.inj Prod.mk.inj
    · refine ⟨⟨?_, hnonempty, hname, by simp⟩, rfl⟩
      rintro _ _ ⟨⟩
      exact ⟨hword, .inl rfl⟩
    · refine ⟨⟨?_, hnonempty, hname, by simp⟩, rfl⟩
      rintro _ _ ⟨⟩
      exact ⟨hword, .inr rfl⟩
  refine ⟨hne, ?_⟩
  cases hform with
  | token htoken =>
      cases htoken with
      | plain =>
          exact ⟨⟨none, _, none, false⟩, ⟨nofun, hnonempty, hname, nofun⟩,
            by simp [TypePieces.text, TypePieces.ending], rfl, hlast, rfl⟩
      | brackets =>
          exact ⟨⟨none, name, none, true⟩, ⟨nofun, hnonempty, hname, nofun⟩,
            by simp [TypePieces.text, TypePieces.ending], rfl, hlast, rfl⟩
      | contained hword hpair =>
          obtain ⟨htaken, hmatched⟩ := hopens false hword hpair
          exact ⟨_, htaken, by simp [TypePieces.text, TypePieces.ending], rfl, hlast, hmatched⟩
  | again hword hpair =>
      obtain ⟨htaken, hmatched⟩ := hopens true hword hpair
      exact ⟨_, htaken, by simp [TypePieces.text, TypePieces.ending], rfl, hlast, hmatched⟩

/-- Pieces that match have the form of a return type. -/
theorem TypePieces.AreTaken.isTypeForm {p : TypePieces} (hp : p.AreTaken) (hmatched : p.IsMatched) :
    IsTypeForm p.name p.text p.isList := by
  obtain ⟨container, name, closing, brackets⟩ := p
  cases container with
  | none =>
      obtain rfl : closing = none := hmatched
      cases brackets with
      | false =>
          have htext : TypePieces.text ⟨none, name, none, false⟩ = name := by
            simp [TypePieces.text, TypePieces.ending]
          rw [htext]
          exact .token .plain
      | true => exact .token .brackets
  | some c =>
      obtain ⟨word, opening⟩ := c
      obtain rfl : closing = some (if opening = .char '<' then .char '>' else .char ']') := hmatched
      obtain ⟨hword, hopening⟩ := hp.container word opening rfl
      -- The opening bracket decides which one closes.
      have hpair : (opening, if opening = .char '<' then CodePoint.char '>' else .char ']')
            = (.char '<', .char '>') ∨
          (opening, if opening = .char '<' then CodePoint.char '>' else .char ']')
            = (.char '[', .char ']') := by
        obtain rfl | rfl := hopening
        · exact .inl rfl
        · exact .inr rfl
      cases brackets with
      | false => exact .token (.contained hword hpair)
      | true => exact .again hword hpair

/-- Pieces make a return type if and only if they match and the name ends in a segment, and then
they make one only. -/
theorem TypePieces.AreTaken.isReturnType_iff {p : TypePieces} (hp : p.AreTaken)
    (hlast : IsLastSegment last p.name) (schema : Text) :
    IsReturnType p.text schema isList ↔
      (schema = last ∧ isList = p.isList) ∧ p.IsMatched ∧ last ≠ [] := by
  constructor
  · intro h
    obtain ⟨hne, q, hq, htext, hlist, hschema, hmatched⟩ := h.exists_pieces
    obtain rfl : q = p := TypePieces.text_injective hq hp htext
    obtain rfl : schema = last := hschema.eq_unqualified.symm.trans hlast.eq_unqualified
    exact ⟨⟨rfl, hlist.symm⟩, hmatched, hne⟩
  · rintro ⟨⟨rfl, rfl⟩, hmatched, hne⟩
    exact ⟨p.name, hp.name, hlast, hne, hp.isTypeForm hmatched⟩

/-- The token of a return tag: its first word, without slashes and backslashes around it. -/
def returnToken (text : Text) : Text := trimOf "\\/" (takeToken text).1

/-- A return text whose token has these pieces is read as the last segment of the name, and as a
list if the pieces say so. -/
theorem TypePieces.AreTaken.parseReturn_eq {p : TypePieces} (hp : p.AreTaken)
    (hlast : IsLastSegment last p.name) {text : Text} (htext : p.text = returnToken text)
    (tag : Text) : parseReturn tag text = .ok (returned last p.isList) := by
  rw [parseReturn, ← returnToken, ← htext, hp.returnType?_text]
  show (if p.isList then _ else _) = _
  rw [hlast.eq_unqualified, returned]
  cases p.isList <;> rfl

/-- A return tag is accepted if and only if pieces make its token, whether or not they fit
together. The response refers to the last segment of their name, or to a list of it, and the token
is a return type if and only if the brackets match and that segment is not empty. Every other tag
is malformed, and its token is no return type. -/
theorem parseReturn_pieces (tag text : Text) :
    (∃ (p : TypePieces) (last : Text), p.AreTaken ∧ p.text = returnToken text ∧
        IsLastSegment last p.name ∧ parseReturn tag text = .ok (returned last p.isList) ∧
        ∀ schema isList, IsReturnType (returnToken text) schema isList ↔
          (schema = last ∧ isList = p.isList) ∧ p.IsMatched ∧ last ≠ []) ∨
    ((∀ p : TypePieces, p.AreTaken → p.text ≠ returnToken text) ∧
      (∀ schema isList, ¬ IsReturnType (returnToken text) schema isList) ∧
      parseReturn tag text = .error (.malformedTag tag (.badReturnType (takeToken text).1))) := by
  -- The reader decides between the two halves, and its pieces are the ones that the first asks
  -- for.
  cases hread : returnType? (returnToken text) with
  | some type =>
      left
      obtain ⟨p, hp, htext, -⟩ := exists_of_returnType? hread
      obtain ⟨last, hlast⟩ := exists_isLastSegment p.name
      refine ⟨p, last, hp, htext, hlast, hp.parseReturn_eq hlast htext tag, ?_⟩
      intro schema isList
      rw [← htext]
      exact hp.isReturnType_iff hlast schema
  | none =>
      right
      have hnone := returnType?_eq_none_iff.mp hread
      refine ⟨hnone, ?_, ?_⟩
      · intro schema isList h
        obtain ⟨-, p, hp, htext, -⟩ := h.exists_pieces
        exact hnone p hp htext
      · rw [parseReturn, ← returnToken, hread]

/-- A container that is opened by one bracket and closed by another is accepted, and so is a name
without a last segment. -/
theorem not_isReturnType_mixedBrackets :
    (parseReturn "return" "array<User]" = .ok (returned "User" true) ∧
      ∀ schema isList, ¬ IsReturnType (returnToken "array<User]") schema isList) ∧
    (parseReturn "return" "User." = .ok (returned "" false) ∧
      ∀ schema isList, ¬ IsReturnType (returnToken "User.") schema isList) := by
  have hword : IsContainerWord "array" := .inl rfl
  -- Each token is made by these pieces only, and they do not fit together.
  have hmixed :
      TypePieces.AreTaken ⟨some ("array", .char '<'), "User", some (.char ']'), false⟩ := by
    refine ⟨?_, by decide, by decide, by simp⟩
    rintro _ _ ⟨⟩
    exact ⟨hword, .inl rfl⟩
  have hopen : TypePieces.AreTaken ⟨none, "User.", none, false⟩ :=
    ⟨nofun, by decide, by decide, nofun⟩
  refine ⟨⟨rfl, ?_⟩, rfl, ?_⟩
  · intro schema isList h
    obtain ⟨-, p, hp, htext, -, -, hmatched⟩ := h.exists_pieces
    rw [TypePieces.text_injective hp hmixed htext] at hmatched
    exact absurd (Option.some.inj hmatched) (by decide)
  · intro schema isList h
    obtain ⟨hne, p, hp, htext, -, hlast, -⟩ := h.exists_pieces
    rw [TypePieces.text_injective hp hopen htext] at hlast
    have hempty : unqualified "User." = [] := rfl
    exact hne (hlast.eq_unqualified.symm.trans hempty)

end RouteDocs.Tag
