import Mathlib.Data.List.TakeWhile
import RouteDocs.Proofs.QuotedText
import RouteDocs.Proofs.ReadingFaults
import RouteDocs.Proofs.Words
import RouteDocs.Tag.Response

/-!
# `RouteDocs.Proofs.ReturnTypes`: the types that a return tag may name

A return tag names a type by a qualified name: segments of word characters, with a backslash
or a dot between any two (`IsQualifiedName`). A container around the name, or a pair of
brackets behind it, makes that a list (`IsTypeToken`). `parseReturn_typeToken` says that every
such token is read as it is meant, whatever the name: the last segment is the schema that the
response refers to.

A name may look like a container, or be one: `list`, `array.Item`, `list[]`, `list[list]`. What
keeps the readings apart is that no name and no container word has a bracket in it. So a
container ends at the first bracket of a token, or the token has none, and behind the
container of `list[]` there is no name (`bind_dropContainer?_brackets`).
-/

set_option autoImplicit false

namespace RouteDocs

open Text

namespace Text

/-- A word character divides no words. -/
theorem isBlank_of_isWord {c : CodePoint} (h : isWord c = true) : isBlank c = false := by
  -- Below 128 each character is looked at, and beyond no range of the one table meets one of
  -- the other.
  have hascii : ∀ n : Fin 128, isWord (CodePoint.ofNat n) = true →
      isBlank (CodePoint.ofNat n) = false := by
    decide +kernel
  have hapart : ∀ w ∈ wordRanges, ∀ b ∈ blankRanges, w.2 < b.1 ∨ b.2 < w.1 := by
    decide +kernel
  by_cases hlt : c.toNat < 128
  · have hc := hascii ⟨c.toNat, hlt⟩
    rw [CodePoint.ofNat_toNat] at hc
    exact hc h
  · rw [isWord, if_neg hlt, within, List.any_eq_true] at h
    obtain ⟨w, hw, hc⟩ := h
    rw [Bool.and_eq_true, decide_eq_true_eq, decide_eq_true_eq] at hc
    rw [isBlank, within, List.any_eq_false]
    intro b hb
    have hwb := hapart w hw b hb
    rw [Bool.and_eq_true, decide_eq_true_eq, decide_eq_true_eq]
    omega

end Text

namespace Tag

/-! ### The grammar of return types -/

/-- A segment of a qualified name: word characters, at least one. -/
def IsNameSegment (s : Text) : Prop := s ≠ [] ∧ ∀ c ∈ s, isWord c = true

/-- A qualified name, and its last segment. -/
inductive IsQualifiedName : (name last : Text) → Prop where
  /-- A segment alone. -/
  | segment {s : Text} (h : IsNameSegment s) : IsQualifiedName s s
  /-- A segment, a backslash or a dot, and a qualified name. -/
  | qualified {s name last : Text} {c : CodePoint} (h : IsNameSegment s)
      (hc : c = .char '\\' ∨ c = .char '.') (hname : IsQualifiedName name last) :
      IsQualifiedName (s ++ c :: name) last

/-- A word that stands for a container. -/
def IsContainerWord (word : Text) : Prop :=
  word = "array" ∨ word = "Collection" ∨ word = "list" ∨ word = "List"

/-- A type as a return tag may write it: a name, or a list of what the name stands for. -/
inductive IsTypeToken (name : Text) : (token : Text) → (isList : Bool) → Prop where
  /-- `name`. -/
  | plain : IsTypeToken name name false
  /-- `name[]`. -/
  | brackets : IsTypeToken name (name ++ "[]") true
  /-- `list<name>` or `list[name]`. -/
  | contained {word : Text} {opening closing : CodePoint} (hword : IsContainerWord word)
      (hpair : (opening, closing) = (.char '<', .char '>') ∨
        (opening, closing) = (.char '[', .char ']')) :
      IsTypeToken name (word ++ opening :: (name ++ [closing])) true

/-- The response that a return tag stands for: the schema, or a list of it. -/
def returned (schema : Text) (isList : Bool) : Response :=
  let reference : Properties := [(.str "$ref", .str ("#/components/schemas/" ++ schema))]
  if isList then
    { status := 200
      description := "Array of " ++ schema ++ "s"
      schemaRef := some [(.str "type", .str "array"), (.str "items", .map reference)] }
  else { status := 200, description := schema, schemaRef := some reference }

/-! ### Characters of a token -/

/-- The characters of a segment may stand in a name. -/
theorem IsNameSegment.isNamePart {s : Text} (h : IsNameSegment s) :
    ∀ c ∈ s, isNamePart c = true := by
  intro c hc
  simp [Tag.isNamePart, h.2 c hc]

variable {name last token : Text} {isList : Bool}

/-- So may those of a qualified name, slashes and dots between its segments included. -/
theorem IsQualifiedName.isNamePart (h : IsQualifiedName name last) :
    ∀ c ∈ name, isNamePart c = true := by
  induction h with
  | segment h => exact h.isNamePart
  | qualified h hc _ ih =>
      intro d hd
      obtain hd | rfl | hd := by simpa using hd
      · exact h.isNamePart d hd
      · obtain rfl | rfl := hc <;> decide
      · exact ih d hd

/-- A name starts and ends with a word character. -/
theorem IsQualifiedName.ends (h : IsQualifiedName name last) :
    (∃ c cs, name = c :: cs ∧ isWord c = true) ∧ ∃ cs c, name = cs ++ [c] ∧ isWord c = true := by
  induction h with
  | @segment s h =>
      constructor
      · obtain ⟨c, cs, rfl⟩ := List.exists_cons_of_ne_nil h.1
        exact ⟨c, cs, rfl, h.2 c List.mem_cons_self⟩
      · obtain ⟨cs, c, rfl⟩ := (List.eq_nil_or_concat' s).resolve_left h.1
        exact ⟨cs, c, rfl, h.2 c (by simp)⟩
  | @qualified s name last b h _ _ ih =>
      obtain ⟨-, cs, c, rfl, hc⟩ := ih
      constructor
      · obtain ⟨d, ds, rfl⟩ := List.exists_cons_of_ne_nil h.1
        exact ⟨d, _, rfl, h.2 d List.mem_cons_self⟩
      · exact ⟨s ++ b :: cs, c, by simp, hc⟩

/-- No bracket is part of a name. -/
theorem not_isNamePart_bracket {c : CodePoint}
    (h : c = .char '<' ∨ c = .char '[' ∨ c = .char '>' ∨ c = .char ']') :
    isNamePart c = false := by
  obtain rfl | rfl | rfl | rfl := h <;> decide

/-- None of them is a blank. -/
theorem isBlank_of_isNamePart {c : CodePoint} (h : isNamePart c = true) : isBlank c = false := by
  simp only [isNamePart, Bool.or_eq_true, decide_eq_true_eq] at h
  obtain (h | rfl) | rfl := h
  · exact isBlank_of_isWord h
  · decide
  · decide

/-- The word of a container is made of them too. -/
theorem IsContainerWord.isNamePart {word : Text} (h : IsContainerWord word) :
    ∀ c ∈ word, Tag.isNamePart c = true := by
  obtain rfl | rfl | rfl | rfl := h <;> decide

/-- A token has no blanks, and neither a slash nor a backslash at its ends. -/
theorem IsTypeToken.shape (h : IsTypeToken name token isList) (hname : IsQualifiedName name last) :
    (∀ c ∈ token, isBlank c = false) ∧
      (∃ c cs, token = c :: cs ∧ (ofString "\\/").contains c = false) ∧
        ∃ cs c, token = cs ++ [c] ∧ (ofString "\\/").contains c = false := by
  have hblank : ∀ c ∈ name, isBlank c = false :=
    fun c hc => isBlank_of_isNamePart (hname.isNamePart c hc)
  have hslash : ∀ {c}, isWord c = true → (ofString "\\/").contains c = false := by
    intro c hc
    rw [← Bool.not_eq_true, List.contains_iff_mem]
    intro hmem
    obtain rfl | rfl : c = .char '\\' ∨ c = .char '/' := by simpa [ofString] using hmem
    · exact absurd hc (by decide)
    · exact absurd hc (by decide)
  obtain ⟨⟨first, rest, hfirst, hfirstWord⟩, front, final, hfinal, hfinalWord⟩ := hname.ends
  cases h with
  | plain => exact ⟨hblank, ⟨_, _, hfirst, hslash hfirstWord⟩, _, _, hfinal, hslash hfinalWord⟩
  | brackets =>
      refine ⟨?_, ⟨first, rest ++ "[]", by simp [hfirst], hslash hfirstWord⟩,
        name ++ "[", .char ']', by simp [ofString], by decide⟩
      intro c hc
      obtain hc | rfl | rfl := by simpa [ofString] using hc
      · exact hblank c hc
      · decide
      · decide
  | @contained word opening closing hword hpair =>
      -- The word of a container starts with a letter, and its brackets are no slashes.
      obtain ⟨d, ds, hd, hdWord⟩ : ∃ d ds, word = d :: ds ∧ isWord d = true := by
        obtain rfl | rfl | rfl | rfl := hword <;> exact ⟨_, _, rfl, by decide⟩
      obtain ⟨hopening, hclosing, hclosingSlash⟩ : isBlank opening = false ∧
          isBlank closing = false ∧ (ofString "\\/").contains closing = false := by
        obtain ⟨rfl, rfl⟩ | ⟨rfl, rfl⟩ := hpair.imp Prod.mk.inj Prod.mk.inj
        · decide
        · decide
      refine ⟨?_, ⟨d, ds ++ opening :: (name ++ [closing]), by simp [hd], hslash hdWord⟩,
        word ++ opening :: name, closing, by simp, hclosingSlash⟩
      intro c hc
      obtain hc | rfl | hc | rfl := by simpa using hc
      · exact isBlank_of_isNamePart (hword.isNamePart c hc)
      · exact hopening
      · exact hblank c hc
      · exact hclosing

/-- The slashes in front of a token are trimmed, and nothing else of it. -/
theorem trimOf_slashes {slashes : Text} (hslashes : ∀ c ∈ slashes, c = .char '\\' ∨ c = .char '/')
    (hfirst : ∃ c cs, token = c :: cs ∧ (ofString "\\/").contains c = false)
    (hlast : ∃ cs c, token = cs ++ [c] ∧ (ofString "\\/").contains c = false) :
    trimOf "\\/" (slashes ++ token) = token := by
  have hdrop : (slashes ++ token).dropWhile (ofString "\\/").contains = token := by
    rw [List.dropWhile_append_of_pos]
    · obtain ⟨c, cs, rfl, hc⟩ := hfirst
      exact List.dropWhile_cons_of_neg (by rw [hc]; nofun)
    · intro c hc
      obtain rfl | rfl := hslashes c hc <;> decide
  rw [trimOf, hdrop]
  obtain ⟨cs, c, rfl, hc⟩ := hlast
  exact dropEndWhile_eq_self fun d hd => by
    rw [List.getLast?_concat] at hd
    rw [← Option.some.inj hd, hc]

/-! ### Reading a token -/

/-- The name of a token ends where something else than a name goes on. -/
theorem dropWhile_isNamePart (hname : ∀ c ∈ name, isNamePart c = true) {rest : Text}
    (hrest : ∀ c, rest.head? = some c → isNamePart c = false) :
    (name ++ rest).dropWhile isNamePart = rest := by
  rw [List.dropWhile_append_of_pos hname]
  cases rest with
  | nil => rfl
  | cons c cs => simp [hrest c rfl]

/-- The name of a token ends at the first bracket. -/
theorem nameToEnd?_append (hne : name ≠ []) (hname : ∀ c ∈ name, isNamePart c = true) {rest : Text}
    (hrest : ∀ c, rest.head? = some c → isNamePart c = false) :
    nameToEnd? (name ++ rest) =
      if rest = "" ∨ rest = ">" ∨ rest = "]" then some (name, false)
      else if rest = "[]" ∨ rest = ">[]" ∨ rest = "][]" then some (name, true)
      else none := by
  have htake : (name ++ rest).takeWhile isNamePart = name := by
    rw [List.takeWhile_append_of_pos hname]
    cases rest with
    | nil => simp
    | cons c cs => simp [hrest c rfl]
  rw [nameToEnd?, htake, dropWhile_isNamePart hname hrest]
  simp [hne, or_assoc]

/-- A container and its opening bracket are taken off a token. -/
theorem dropContainer?_append {word : Text} (hword : IsContainerWord word) {c : CodePoint}
    (hc : c = .char '<' ∨ c = .char '[') (rest : Text) :
    dropContainer? (word ++ c :: rest) = some rest := by
  obtain rfl | rfl | rfl | rfl := hword <;> obtain rfl | rfl := hc <;> rfl

/-- What is taken off a token is the word of a container and an opening bracket. -/
theorem exists_of_dropContainer? {rest : Text} (h : dropContainer? token = some rest) :
    ∃ word c, IsContainerWord word ∧ (c = .char '<' ∨ c = .char '[') ∧
      token = word ++ c :: rest := by
  obtain ⟨word, hword, h⟩ := List.exists_of_findSome?_eq_some h
  have hcontainer : IsContainerWord word := by
    simpa [containerWords, IsContainerWord] using hword
  split at h
  · rename_i c others hdrop
    split at h
    · rename_i hc
      obtain rfl := Option.some.inj h
      rw [Bool.or_eq_true, decide_eq_true_eq, decide_eq_true_eq] at hc
      exact ⟨word, c, hcontainer, hc, eq_append_of_dropStart? hdrop⟩
    · cases h
  · cases h

/-- A container in front of what is no name is all of the name before it, and a bracket. -/
theorem eq_cons_of_dropContainer? (hname : ∀ c ∈ name, isNamePart c = true) {rest inner : Text}
    (hrest : ∀ c, rest.head? = some c → isNamePart c = false)
    (h : dropContainer? (name ++ rest) = some inner) :
    ∃ c, (c = .char '<' ∨ c = .char '[') ∧ rest = c :: inner := by
  obtain ⟨word, c, hword, hc, heq⟩ := exists_of_dropContainer? h
  have hbracket : isNamePart c = false := not_isNamePart_bracket (by tauto)
  refine ⟨c, hc, ?_⟩
  rw [← dropWhile_isNamePart hname hrest, heq]
  exact dropWhile_isNamePart hword.isNamePart (by rintro d ⟨⟩; exact hbracket)

/-- A name has no bracket, so no container is taken off it. -/
theorem dropContainer?_name (hname : ∀ c ∈ name, isNamePart c = true) :
    dropContainer? name = none := by
  by_contra hsome
  obtain ⟨rest, h⟩ := Option.ne_none_iff_exists'.mp hsome
  rw [← List.append_nil name] at h
  obtain ⟨c, -, hnil⟩ := eq_cons_of_dropContainer? hname (by simp) h
  exact nomatch hnil

/-- In front of a pair of brackets nothing is a container: what is left behind one is no name. -/
theorem bind_dropContainer?_brackets (hname : ∀ c ∈ name, isNamePart c = true) :
    (dropContainer? (name ++ "[]")).bind nameToEnd? = none := by
  cases h : dropContainer? (name ++ "[]") with
  | none => rfl
  | some rest =>
      obtain ⟨c, -, hrest⟩ := eq_cons_of_dropContainer? hname (by rintro c ⟨⟩; decide) h
      obtain ⟨rfl, rfl⟩ := List.cons.inj hrest
      rfl

/-- A token is read as the name that it has, and as a list if it is one. -/
theorem returnType?_of_isTypeToken (htoken : IsTypeToken name token isList)
    (hname : IsQualifiedName name last) : returnType? token = some ⟨name, isList⟩ := by
  have hparts := hname.isNamePart
  have hne : name ≠ [] := by
    obtain ⟨⟨c, cs, rfl, -⟩, -⟩ := hname.ends
    exact List.cons_ne_nil c cs
  -- By the form of the token: each reads the name up to what cannot be part of one.
  cases htoken with
  | plain =>
      have hread : nameToEnd? name = some (name, false) := by
        have hnil : ∀ c, ([] : Text).head? = some c → isNamePart c = false := nofun
        have h := nameToEnd?_append hne hparts hnil
        rwa [List.append_nil, if_pos (.inl rfl)] at h
      rw [returnType?, dropContainer?_name hparts, Option.bind_none]
      show (nameToEnd? name).map _ = _
      rw [hread]
      rfl
  | brackets =>
      have hread : nameToEnd? (name ++ "[]") = some (name, true) := by
        rw [nameToEnd?_append hne hparts (by rintro c ⟨⟩; decide)]
        rfl
      rw [returnType?, bind_dropContainer?_brackets hparts]
      show (nameToEnd? (name ++ "[]")).map _ = _
      rw [hread]
      rfl
  | @contained word opening closing hword hpair =>
      have hopening : opening = .char '<' ∨ opening = .char '[' :=
        hpair.imp (fun h => (Prod.mk.inj h).1) fun h => (Prod.mk.inj h).1
      have hread : nameToEnd? (name ++ [closing]) = some (name, false) := by
        obtain ⟨-, rfl⟩ | ⟨-, rfl⟩ := hpair.imp Prod.mk.inj Prod.mk.inj
        · rw [nameToEnd?_append hne hparts (by rintro c ⟨⟩; decide)]
          rfl
        · rw [nameToEnd?_append hne hparts (by rintro c ⟨⟩; decide)]
          rfl
      rw [returnType?, dropContainer?_append hword hopening, Option.bind_some, hread]

/-- The schema of a qualified name is its last segment. -/
theorem unqualified_eq (h : IsQualifiedName name last) : unqualified name = last := by
  have hcut : ∀ {s : Text}, IsNameSegment s → ∀ c ∈ s, (ofString "\\.").contains c = false := by
    intro s hs c hc
    rw [← Bool.not_eq_true, List.contains_iff_mem]
    intro hmem
    have hword := hs.2 c hc
    obtain rfl | rfl : c = .char '\\' ∨ c = .char '.' := by simpa [ofString] using hmem
    · exact absurd hword (by decide)
    · exact absurd hword (by decide)
  induction h with
  | segment h =>
      rw [unqualified, splitWhere_eq_singleton (hcut h)]
      rfl
  | @qualified s name last c h hc hname ih =>
      have hsep : (ofString "\\.").contains c = true := by
        obtain rfl | rfl := hc <;> decide
      rw [unqualified] at ih ⊢
      rw [splitWhere_append (hcut h) hsep, List.getLast?_cons_of_ne_nil (splitWhere_ne_nil _ _), ih]

/-- Every type that is written in the grammar is read from a return tag, with slashes and
backslashes in front of it or none, whatever text follows. The response has status 200 and refers
to the schema of the name's last segment, or to a list of it. -/
theorem parseReturn_typeToken (tag : Text) {slashes rest : Text}
    (hname : IsQualifiedName name last) (htoken : IsTypeToken name token isList)
    (hslashes : ∀ c ∈ slashes, c = .char '\\' ∨ c = .char '/')
    (hrest : rest.head?.all isBlank = true) :
    parseReturn tag (slashes ++ token ++ rest) = .ok (returned last isList) := by
  obtain ⟨hblank, hfirst, hlast⟩ := htoken.shape hname
  have hword : IsWord (slashes ++ token) := by
    constructor
    · obtain ⟨c, cs, rfl, -⟩ := hfirst
      simp
    · intro c hc
      rcases List.mem_append.mp hc with hc | hc
      · obtain rfl | rfl := hslashes c hc <;> decide
      · exact hblank c hc
  -- With its slashes the token is still one word, and all of it is taken.
  have htake : (takeToken (slashes ++ token ++ rest)).1 = slashes ++ token := by
    cases rest with
    | nil =>
        rw [List.append_nil, takeToken, trimStart_of_trim hword.trim_eq]
        exact List.takeWhile_eq_self_iff.mpr (by simpa using hword.2)
    | cons b rest => rw [hword.takeToken_append (by simpa using hrest)]
  rw [parseReturn, htake, trimOf_slashes hslashes hfirst hlast,
    returnType?_of_isTypeToken htoken hname]
  show (if isList then _ else _) = _
  rw [unqualified_eq hname, returned]
  cases isList <;> rfl

/-- A list of a type whose name is that of a container, behind a name of containers. -/
theorem parseReturn_nestedList :
    IsQualifiedName "list.array\\List" "List" ∧
      IsTypeToken "list.array\\List" "list[list.array\\List]" true ∧
      parseReturn "return" "\\/\\list[list.array\\List] all of them"
        = .ok (returned "List" true) := by
  have hname : IsQualifiedName "list.array\\List" "List" :=
    .qualified (s := "list") (c := .char '.') ⟨by decide, by decide⟩ (.inr rfl)
      (.qualified (s := "array") (c := .char '\\') ⟨by decide, by decide⟩ (.inl rfl)
        (.segment ⟨by decide, by decide⟩))
  have hcontainer : IsContainerWord "list" := .inr (.inr (.inl rfl))
  have htoken : IsTypeToken "list.array\\List" "list[list.array\\List]" true :=
    .contained hcontainer (.inr rfl)
  have hslashes : ∀ c ∈ ("\\/\\" : Text), c = .char '\\' ∨ c = .char '/' := by decide
  have hrest : (" all of them" : Text).head?.all isBlank = true := by decide
  exact ⟨hname, htoken, parseReturn_typeToken "return" hname htoken hslashes hrest⟩

end Tag

end RouteDocs
