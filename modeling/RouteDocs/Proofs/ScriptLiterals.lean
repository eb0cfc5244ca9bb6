import RouteDocs.Proofs.ScriptReader
import RouteDocs.Proofs.StrictJson

/-!
# `RouteDocs.Proofs.ScriptLiterals`: JSON text in a script

The values of a script are written as JSON, and are read as literals of the script. Both agree on
numbers, on lists and mappings, and on most strings. They do not agree on null and the truth values:
JSON has words for them that are no constants of a script. And they do not agree on a character
beyond the basic plane: JSON has two escapes for it, and a script reads each as a code point of its
own.

`reread?` is what becomes of a value in this way. The JSON text of a value has the tokens of a
literal, however it is laid out, and the literal is read as what becomes of the value
(`hasLiteral_of_madeOf`). The proof is by induction on how the value is made. Which values stay the
same is said by `reread?_eq_self_iff`.
-/

set_option autoImplicit false

namespace RouteDocs

open Text

/-! ### Values of some scalars -/

/-- A value of lists and mappings whose scalars and keys are of a class. The keys of a mapping are
distinct texts. -/
inductive Value.MadeOf (p : Scalar → Bool) : Value → Prop where
  /-- A scalar. -/
  | scalar {s : Scalar} (hs : p s = true) : MadeOf p (.scalar s)
  /-- A list. -/
  | list {items : List Value} (hitems : ∀ v ∈ items, MadeOf p v) : MadeOf p (.list items)
  /-- A mapping. -/
  | map {fields : List (Text × Value)} (hkeys : (fields.map Prod.fst).Nodup)
      (hnames : ∀ f ∈ fields, p (.str f.1) = true) (hvalues : ∀ f ∈ fields, MadeOf p f.2) :
      MadeOf p (.map (fields.map fun f => (.str f.1, f.2)))

/-- Fields are those of the mapping that is made of them. -/
theorem Value.ofFields_inj {fields others : List (Text × Value)} :
    ofFields fields = ofFields others ↔ fields = others := by
  constructor
  · intro h
    rw [ofFields, ofFields, Value.map.injEq] at h
    refine (List.map_inj_right ?_).mp h
    intro f g hfg
    simpa [Prod.ext_iff] using hfg
  · exact congrArg ofFields

section Classes

variable {p q : Scalar → Bool}

/-- A scalar is of a class as a value exactly if it is one of its scalars. -/
theorem Value.madeOf_scalar_iff {s : Scalar} : (Value.scalar s).MadeOf p ↔ p s = true := by
  constructor
  · intro h
    cases h with
    | scalar hs => exact hs
  · exact .scalar

/-- A list is of a class if its elements are. -/
theorem Value.madeOf_list_iff {items : List Value} :
    (Value.list items).MadeOf p ↔ ∀ v ∈ items, v.MadeOf p := by
  constructor
  · intro h
    cases h with
    | list hitems => exact hitems
  · exact .list

/-- A mapping is of a class if its names are distinct, and these and its values are of the class. -/
theorem Value.madeOf_ofFields_iff {fields : List (Text × Value)} :
    (Value.ofFields fields).MadeOf p ↔ (fields.map Prod.fst).Nodup ∧
      ∀ f ∈ fields, p (.str f.1) = true ∧ f.2.MadeOf p := by
  constructor
  · intro h
    generalize hv : Value.ofFields fields = v at h
    cases h with
    | scalar _ => cases hv
    | list _ => cases hv
    | map hkeys hnames hvalues =>
        obtain rfl := Value.ofFields_inj.mp hv
        exact ⟨hkeys, fun f hf => ⟨hnames f hf, hvalues f hf⟩⟩
  · intro h
    exact .map h.1 (fun f hf => (h.2 f hf).1) (fun f hf => (h.2 f hf).2)

end Classes

/-- Null, a truth value, a whole number or a text. -/
def Scalar.isExample : Scalar → Bool
  | .null | .bool _ | .int _ | .str _ => true
  | _ => false

/-- A whole number, or a text in the basic plane. -/
def Scalar.isPortable : Scalar → Bool
  | .int _ => true
  | .str s => s.all fun c => c.toNat < 0x10000
  | _ => false

/-! ### What a script makes of a value in JSON -/

namespace Script

/-- What the JSON text of a scalar is in a script. A text has its surrogates apart. The words of
JSON are names that have no value. -/
def rereadScalar? : Scalar → Option Value
  | .int i => some (.int i)
  | .str s => some (.str s.asUnits)
  | _ => none

mutual

/-- What the JSON text of a value is in a script. -/
def reread? : Value → Option Value
  | .scalar s => rereadScalar? s
  | .list items => (rereadItems? items).map .list
  | .map entries => (rereadEntries? entries).map fun fields => .ofFields (Entries.ofList fields)
  | _ => none

/-- What the elements of a list are. -/
def rereadItems? : List Value → Option (List Value)
  | [] => some []
  | v :: vs => (reread? v).bind fun w => (rereadItems? vs).map (w :: ·)

/-- What the entries of a mapping are. -/
def rereadEntries? : List (Scalar × Value) → Option (List (Text × Value))
  | [] => some []
  | (k, v) :: es =>
    match k with
    | .str name =>
      (reread? v).bind fun w => (rereadEntries? es).map ((name.asUnits, w) :: ·)
    | _ => none

end

/-! ### Tokens of a JSON text -/

section Tokens

variable {s rest : Text} {depth : Nat}

/-- In a string, an escape of one letter is read as its character. -/
theorem tokensFrom?_escape {letter c : CodePoint} (hletter : letter ≠ 'u')
    (h : Entries.get? letter escapes = some c) :
    tokensFrom? (.text s) depth (.char '\\' :: letter :: rest)
      = tokensFrom? (.text (s ++ [c])) depth rest := by
  have hslash : emit? (.text s) depth (.char '\\') = some ([], .escape s, depth) := rfl
  have hemit : emit? (.escape s) depth letter = some ([], .text (s ++ [c]), depth) := by
    rw [emit?, if_neg hletter, h, Option.map_some]
  rw [tokensFrom?_of_emit? hslash, tokensFrom?_of_emit? hemit]

/-- Four digits are one code point, whatever it is. -/
theorem tokensFrom?_unit {u : Nat} (hu : u < 0x10000) :
    tokensFrom? (.text s) depth (.char '\\' :: .char 'u' :: (toHex 4 u ++ rest))
      = tokensFrom? (.text (s ++ [.ofNat u])) depth rest := by
  have hvalue : ofHex? (toHex 4 u) = some u := by
    rw [ofHex?_toHex, Nat.mod_eq_of_lt (show u < 16 ^ 4 from hu)]
  -- The digits are collected one by one, and only the last makes a code point of them.
  obtain ⟨a, b, c, d, hdigits⟩ : ∃ a b c d, toHex 4 u = [a, b, c, d] := ⟨_, _, _, _, rfl⟩
  rw [hdigits] at hvalue ⊢
  have hlast : emit? (.unit s [a, b, c]) depth d = some ([], .text (s ++ [.ofNat u]), depth) := by
    show (ofHex? [a, b, c, d]).map _ = _
    rw [hvalue, Option.map_some]
  have hslash : emit? (.text s) depth (.char '\\') = some ([], .escape s, depth) := rfl
  have hletter : emit? (.escape s) depth (.char 'u') = some ([], .unit s [], depth) := rfl
  have hfirst : emit? (.unit s []) depth a = some ([], .unit s [a], depth) := rfl
  have hsecond : emit? (.unit s [a]) depth b = some ([], .unit s [a, b], depth) := rfl
  have hthird : emit? (.unit s [a, b]) depth c = some ([], .unit s [a, b, c], depth) := rfl
  show tokensFrom? (.text s) depth (.char '\\' :: .char 'u' :: a :: b :: c :: d :: rest) = _
  rw [tokensFrom?_of_emit? hslash, tokensFrom?_of_emit? hletter, tokensFrom?_of_emit? hfirst,
    tokensFrom?_of_emit? hsecond, tokensFrom?_of_emit? hthird, tokensFrom?_of_emit? hlast]

/-- Escapes of four digits are read one by one, and two halves of a character stay apart. -/
theorem tokensFrom?_units (units : List Nat) (hunits : ∀ u ∈ units, u < 0x10000) :
    tokensFrom? (.text s) depth
        (units.flatMap (fun u => .char '\\' :: .char 'u' :: toHex 4 u) ++ rest)
      = tokensFrom? (.text (s ++ units.map .ofNat)) depth rest := by
  induction units generalizing s with
  | nil => rw [List.flatMap_nil, List.nil_append, List.map_nil, List.append_nil]
  | cons u us ih =>
      rw [List.forall_mem_cons] at hunits
      have htext : (u :: us).flatMap (fun u => .char '\\' :: .char 'u' :: toHex 4 u) ++ rest
          = .char '\\' :: .char 'u' :: (toHex 4 u ++
              (us.flatMap (fun u => .char '\\' :: .char 'u' :: toHex 4 u) ++ rest)) := by
        simp
      rw [htext, tokensFrom?_unit hunits.1, ih hunits.2, List.map_cons, List.append_assoc,
        List.singleton_append]

/-- So a code point, as JSON writes it, is read as its units. -/
theorem tokensFrom?_charText (c : CodePoint) :
    tokensFrom? (.text s) depth (Json.charText c ++ rest)
      = tokensFrom? (.text (s ++ c.asUnits)) depth rest := by
  rw [Json.charText]
  -- Some characters have an escape of their own.
  iterate 5
    split
    · rename_i h
      rw [h]
      exact tokensFrom?_escape (by decide) rfl
  -- Two of them are given by their numbers.
  iterate 2
    split
    · rename_i h
      rw [← CodePoint.ofNat_toNat c, h]
      exact tokensFrom?_escape (by decide) rfl
  split
  · rename_i hquote hslash _ _ _ _ _ hprint
    have hemit : emit? (.text s) depth c = some ([], .text (s ++ [c]), depth) := by
      rw [emit?, if_neg hquote, if_neg hslash, if_pos hprint]
    rw [Bool.and_eq_true, decide_eq_true_iff, decide_eq_true_iff] at hprint
    rw [CodePoint.asUnits_of_lt (by omega)]
    exact tokensFrom?_of_emit? hemit rest
  · exact tokensFrom?_units (units16 c) fun u => Yaml.units16_lt

/-- Inside of a string the characters of a text add its units. -/
theorem tokensFrom?_flatMap_charText (depth : Nat) (t s rest : Text) :
    tokensFrom? (.text s) depth (t.flatMap Json.charText ++ rest)
      = tokensFrom? (.text (s ++ t.asUnits)) depth rest := by
  induction t generalizing s rest with
  | nil => rw [List.flatMap_nil, List.nil_append, Text.asUnits, List.flatMap_nil, List.append_nil]
  | cons c t ih =>
      rw [List.flatMap_cons, List.append_assoc, tokensFrom?_charText, ih, Text.asUnits_cons,
        List.append_assoc]

/-- A string of JSON is one token, with the units of the text. -/
theorem lexes_stringText (t : Text) : Lexes (Json.stringText t) [.str t.asUnits] where
  run := by
    intro depth rest hrest
    have htext : Json.stringText t ++ rest
        = .char '"' :: (t.flatMap Json.charText ++ .char '"' :: rest) := by
      simp [Json.stringText, ofString]
    have hopen : emit? .between depth (.char '"') = some ([], .text [], depth) := rfl
    have hclose : emit? (.text t.asUnits) depth (.char '"')
        = some ([.str t.asUnits], .closed, depth) := rfl
    rw [htext, tokensFrom?_of_emit? hopen, tokensFrom?_flatMap_charText, List.nil_append,
      tokensFrom?_of_emit?_token hclose, tokensFrom?_closed hrest]
    rfl
  line := by simp

/-- A digit may stand in a name, so it has to be read as part of a number first. -/
theorem isNamePart_of_isDigit {c : CodePoint} (h : c.isDigit = true) : isNamePart c = true := by
  cases c with
  | surrogate offset => cases h
  | char ch =>
      have hdigit : ch.isDigit = true := h
      simp [isNamePart, CodePoint.isAlphanum, CodePoint.isOf, Char.isAlphanum, hdigit]

/-- A numeral is one token, with its number. -/
theorem lexes_natText (n : Nat) : Lexes (Number.natText n) [.int n] := by
  obtain ⟨c, cs, htext⟩ := List.exists_cons_of_ne_nil (Number.natText_ne_nil n)
  have hdigits := Number.areDigits_natText n
  have hvalue := Number.ofDecimals_natText n
  rw [htext] at hdigits hvalue ⊢
  have htoken : wordToken? (c :: cs) = some (.int n) := by
    -- Only zero itself is written with a zero in front.
    have hzero : ¬ (c = '0' ∧ cs ≠ []) := by
      rintro ⟨rfl, hne⟩
      exact hne (Yaml.natText_eq_zero_cons htext)
    rw [wordToken?, if_pos (List.all_eq_true.mpr hdigits), if_neg hzero, hvalue]
  exact lexes_word (fun d hd => isNamePart_of_isDigit (hdigits d hd)) htoken (by simp)

/-- A whole number is a number with its sign in front. -/
theorem exists_lexes_intText (i : Int) :
    ∃ ts, Lexes (Number.intText i) ts ∧ Reads ts (some (.int i)) := by
  have hnumber := lexes_natText i.natAbs
  rw [Number.intText]
  by_cases hneg : i < 0
  · rw [if_pos hneg]
    refine ⟨[.mark .minus, .int i.natAbs], ⟨?_, by simp⟩, ?_⟩
    · intro depth rest hrest
      have hminus : emit? .between depth (.char '-') = some ([.mark .minus], .between, depth) := rfl
      show tokensFrom? .between depth (.char '-' :: (Number.natText i.natAbs ++ rest)) = _
      rw [tokensFrom?_of_emit?_token hminus, hnumber.run depth rest hrest, Option.map_map]
      rfl
    · intro contexts rest
      have hvalue : i = -i.natAbs := by omega
      rw [hvalue]
      simp only [Int.natAbs_neg, Int.natAbs_natCast]
      rfl
  · rw [if_neg hneg]
    refine ⟨[.int i.natAbs], hnumber, ?_⟩
    intro contexts rest
    have hvalue : i = i.natAbs := by omega
    rw [hvalue]
    rfl

/-- The JSON text of a scalar has tokens, which are read as what the scalar becomes. The words of
JSON are names, and become nothing. -/
theorem exists_lexes_scalarText {x : Scalar} (hx : x.isExample = true) {t : Text}
    (h : Json.scalarText x = .ok t) : ∃ ts, Lexes t ts ∧ Reads ts (rereadScalar? x) := by
  -- The words of JSON are names, but not the ones of constants.
  have hword : ∀ w : Text, w ∈ [("null" : Text), "true", "false"] → rereadScalar? x = none →
      ∃ ts, Lexes w ts ∧ Reads ts (rereadScalar? x) := by
    intro w hw hnone
    rw [hnone]
    simp only [List.mem_cons, List.not_mem_nil, or_false] at hw
    refine ⟨[.name w], ?_, ?_⟩
    · rcases hw with rfl | rfl | rfl
      · exact lexes_word (by decide) rfl (by simp)
      · exact lexes_word (by decide) rfl (by simp)
      · exact lexes_word (by decide) rfl (by simp)
    · intro contexts rest
      have hconstant : constant? w = none := by
        rcases hw with rfl | rfl | rfl <;> decide
      show ((constant? w).map _).bind _ = none
      rw [hconstant]
      rfl
  cases x with
  | null =>
      obtain rfl := Except.ok.inj h
      exact hword _ (by decide) rfl
  | bool b =>
      cases b with
      | false =>
          obtain rfl := Except.ok.inj h
          exact hword _ (by decide) rfl
      | true =>
          obtain rfl := Except.ok.inj h
          exact hword _ (by decide) rfl
  | int i =>
      rw [Json.scalarText] at h
      rw [Yaml.eq_intText_of_intText? (Scalar.intText?_of_literal h)]
      exact exists_lexes_intText i
  | str s =>
      obtain rfl := Except.ok.inj h
      refine ⟨[.str s.asUnits], lexes_stringText s, ?_⟩
      intro contexts rest
      rfl
  | float _ | bytes _ | date _ | moment _ => cases hx

/-! ### Lists and mappings -/

/-- Space means nothing while a bracket is open. -/
theorem tokensFrom?_gap {gap : Text} (hgap : Json.IsGap gap) :
    tokensFrom? .between (depth + 1) (gap ++ rest) = tokensFrom? .between (depth + 1) rest := by
  induction gap with
  | nil => rfl
  | cons c gap ih =>
      have hc : Json.isSpace c = true := hgap c List.mem_cons_self
      have hemit : emit? .between (depth + 1) c = some ([], .between, depth + 1) := by
        simp only [Json.isSpace, Bool.or_eq_true, decide_eq_true_iff] at hc
        rcases hc with ((rfl | rfl) | rfl) | rfl <;> rfl
      rw [List.cons_append, tokensFrom?_of_emit? hemit]
      exact ih fun d hd => hgap d (List.mem_cons_of_mem _ hd)

/-- Space keeps what follows it apart from what stands in front. -/
theorem apart_of_gap {gap : Text} (hgap : Json.IsGap gap) (h : Apart rest) :
    Apart (gap ++ rest) := by
  cases gap with
  | nil => exact h
  | cons c gap =>
      have hc : Json.isSpace c = true := hgap c List.mem_cons_self
      simp only [Json.isSpace, Bool.or_eq_true, decide_eq_true_iff] at hc
      refine ⟨c, gap ++ rest, rfl, ?_⟩
      rcases hc with ((rfl | rfl) | rfl) | rfl <;> decide

variable {parts : List Text} {tss : List (List Token)}

/-- Parts on one line remain on one line with commas between them. -/
theorem line_intercalate (h : List.Forall₂ Lexes parts tss) :
    .newline ∉ [Token.mark .comma].intercalate tss := by
  induction h with
  | nil => simp
  | cons ht hts ih =>
      cases hts with
      | nil =>
          rw [List.intercalate_singleton]
          exact ht.line
      | cons hnext hmore =>
          rw [List.intercalate_cons_cons]
          simpa using ⟨ht.line, ih⟩

/-- Parts with commas and space between them. -/
theorem tokensFrom?_intercalate {gap : Text} (hgap : Json.IsGap gap)
    (h : List.Forall₂ Lexes parts tss) (hrest : Apart rest) :
    tokensFrom? .between (depth + 1) ((CodePoint.char ',' :: gap).intercalate parts ++ rest)
      = (tokensFrom? .between (depth + 1) rest).map ([Token.mark .comma].intercalate tss ++ ·) := by
  induction h with
  | nil =>
      exact Option.map_id'.symm
  | @cons t ts parts tss ht hts ih =>
      cases hts with
      | nil =>
          rw [List.intercalate_singleton, List.intercalate_singleton]
          exact ht.run _ _ hrest
      | @cons t' ts' parts tss hnext hmore =>
          rw [List.intercalate_cons_cons, List.intercalate_cons_cons, List.append_assoc,
            List.append_assoc, List.cons_append,
            ht.run _ _ ⟨.char ',', _, rfl, by decide, by decide⟩]
          have hcomma : emit? .between (depth + 1) (.char ',')
              = some ([.mark .comma], .between, depth + 1) := rfl
          rw [tokensFrom?_of_emit?_token hcomma, tokensFrom?_gap hgap, ih, Option.map_map,
            Option.map_map]
          simp [Function.comp_def]

/-- Parts in brackets. Whatever stands between them on the page, their tokens have commas between
them. -/
theorem lexes_enclose (layout : Json.Layout) (level : Nat) {opening closing : CodePoint}
    {o c : Mark}
    (hopen : ∀ d, emit? .between d opening = some ([.mark o], .between, d + 1))
    (hclose : ∀ d, emit? .between (d + 1) closing = some ([.mark c], .between, d))
    (hname : isNamePart closing = false) (hquote : closing ≠ '"')
    (h : List.Forall₂ Lexes parts tss) :
    Lexes (layout.enclose level opening closing parts)
      (.mark o :: ([Token.mark .comma].intercalate tss ++ [.mark c])) where
  run := by
    intro depth rest hrest
    obtain ⟨gap, hgap, hbetween⟩ := Json.exists_between layout level
    -- With or without parts, space may stand behind the opening bracket and before the other.
    have hbody : ∃ front behind, Json.IsGap front ∧ Json.IsGap behind ∧
        layout.enclose level opening closing parts ++ rest = opening :: (front ++
          ((CodePoint.char ',' :: gap).intercalate parts ++ (behind ++ closing :: rest))) := by
      cases parts with
      | nil => exact ⟨[], [], Json.isGap_nil, Json.isGap_nil, rfl⟩
      | cons t ts =>
          refine ⟨_, _, Json.isGap_open layout level, Json.isGap_close layout level, ?_⟩
          simp [Json.Layout.enclose, hbetween]
    obtain ⟨front, behind, hfront, hbehind, htext⟩ := hbody
    have hapart : Apart (behind ++ closing :: rest) :=
      apart_of_gap hbehind ⟨closing, rest, rfl, hname, hquote⟩
    rw [htext, tokensFrom?_of_emit?_token (hopen depth), tokensFrom?_gap hfront,
      tokensFrom?_intercalate hgap h hapart, tokensFrom?_gap hbehind,
      tokensFrom?_of_emit?_token (hclose depth), Option.map_map, Option.map_map]
    simp [Function.comp_def]
  line := by simpa using line_intercalate h

/-- A key with its value. -/
theorem lexes_field (key : Text) {t : Text} {ts : List Token} (h : Lexes t ts) :
    Lexes (Json.stringText key ++ ": " ++ t) (.str key.asUnits :: .mark .colon :: ts) where
  run := by
    intro depth rest hrest
    have hcolon : run? .between depth (": " : Text) = some ([.mark .colon], .between, depth) := rfl
    have hapart : Apart ((": " : Text) ++ (t ++ rest)) :=
      ⟨.char ':', _, rfl, by decide, by decide⟩
    rw [List.append_assoc, List.append_assoc, (lexes_stringText key).run _ _ hapart,
      tokensFrom?_of_run? hcolon, h.run _ _ hrest, Option.map_map, Option.map_map]
    rfl
  line := by simpa using h.line

end Tokens

/-! ### Values of tokens -/

section Values

variable {tss : List (List Token)}

/-- The tokens of elements with commas between them are read into a list. The induction is on the
elements, with those that were read before. -/
theorem readFrom?_items {items : List Value}
    (h : List.Forall₂ (fun ts v => Reads ts (reread? v)) tss items) (before : List Value)
    (contexts : List Context) (rest : List Token) :
    readFrom? .ready (.list before :: contexts)
        ([Token.mark .comma].intercalate tss ++ .mark .closeSquare :: rest)
      = (rereadItems? items).bind fun vs =>
          readFrom? (.read (.list (before ++ vs))) contexts rest := by
  induction h generalizing before with
  | nil =>
      rw [rereadItems?, Option.bind_some, List.append_nil]
      rfl
  | @cons ts v tss items hv hmore ih =>
      rw [rereadItems?]
      cases hmore with
      | nil =>
          rw [List.intercalate_singleton, hv]
          cases reread? v with
          | none => rfl
          | some w => rfl
      | cons hnext hmore =>
          rw [List.intercalate_cons_cons, List.append_assoc, List.append_assoc, hv]
          cases reread? v with
          | none => rfl
          | some w =>
              -- Behind the comma the list goes on, with one value more in front.
              have hcomma := ih (before ++ [w])
              simp only [List.append_assoc, List.singleton_append] at hcomma
              simp only [Option.bind_some, Option.bind_map]
              exact hcomma

/-- The tokens of a key and its value. -/
def IsField (ts : List Token) (f : Text × Value) : Prop :=
  ∃ us, ts = .str f.1.asUnits :: .mark .colon :: us ∧ Reads us (reread? f.2)

/-- The tokens of fields with commas between them are read into a mapping, where a later one
replaces an earlier one of its name. -/
theorem readFrom?_fields {fields : List (Text × Value)} (h : List.Forall₂ IsField tss fields)
    (before : List (Text × Value)) (contexts : List Context) (rest : List Token) :
    readFrom? .ready (.dict before :: contexts)
        ([Token.mark .comma].intercalate tss ++ .mark .closeCurly :: rest)
      = (rereadEntries? (fields.map fun f => (.str f.1, f.2))).bind fun fs =>
          readFrom? (.read (.ofFields (Entries.insertAll before fs))) contexts rest := by
  induction h generalizing before with
  | nil => rfl
  | @cons ts f tss fields hf hmore ih =>
      obtain ⟨us, rfl, hv⟩ := hf
      -- Behind the key and the colon stands a literal, inside of an entry.
      have hkey : ∀ others, readFrom? .ready (.dict before :: contexts)
            (.str f.1.asUnits :: .mark .colon :: (us ++ others))
          = (reread? f.2).bind fun w =>
              readFrom? (.read w) (.field before f.1.asUnits :: contexts) others :=
        hv (.field before f.1.asUnits :: contexts)
      rw [List.map_cons, rereadEntries?]
      cases hmore with
      | nil =>
          rw [List.intercalate_singleton, List.cons_append, List.cons_append, hkey]
          cases reread? f.2 with
          | none => rfl
          | some w => rfl
      | cons hnext hmore =>
          rw [List.intercalate_cons_cons, List.append_assoc, List.append_assoc, List.cons_append,
            List.cons_append, hkey]
          cases reread? f.2 with
          | none => rfl
          | some w =>
              simp only [Option.bind_some, Option.bind_map]
              exact ih (Entries.insert f.1.asUnits w before)

end Values

/-! ### The literal of a value -/

section Literals

variable {layout : Json.Layout} {level : Nat}

/-- A value whose JSON text has tokens that are read as what the value becomes. -/
def HasLiteral (layout : Json.Layout) (v : Value) : Prop :=
  ∀ level t, Json.valueText layout level v = .ok t → ∃ ts, Lexes t ts ∧ Reads ts (reread? v)

/-- The texts of elements have tokens, which are read as what the elements become. -/
theorem exists_lexes_itemTexts {items : List Value} (h : ∀ v ∈ items, HasLiteral layout v)
    {parts : List Text} (hparts : Json.itemTexts layout level items = .ok parts) :
    ∃ tss, List.Forall₂ Lexes parts tss ∧
      List.Forall₂ (fun ts v => Reads ts (reread? v)) tss items := by
  induction items generalizing parts with
  | nil =>
      obtain rfl := Except.ok.inj hparts
      exact ⟨[], .nil, .nil⟩
  | cons v items ih =>
      rw [List.forall_mem_cons] at h
      obtain ⟨t, others, ht, hothers, rfl⟩ := Json.itemTexts_cons_eq_ok_iff.mp hparts
      obtain ⟨ts, hlex, hread⟩ := h.1 level t ht
      obtain ⟨tss, hlexes, hreads⟩ := ih h.2 hothers
      exact ⟨ts :: tss, .cons hlex hlexes, .cons hread hreads⟩

/-- The texts of fields have tokens, which are read as what the fields become. -/
theorem exists_lexes_entryTexts {fields : List (Text × Value)}
    (h : ∀ f ∈ fields, HasLiteral layout f.2) {parts : List Text}
    (hparts : Json.entryTexts layout level (fields.map fun f => (.str f.1, f.2)) = .ok parts) :
    ∃ tss, List.Forall₂ Lexes parts tss ∧ List.Forall₂ IsField tss fields := by
  induction fields generalizing parts with
  | nil =>
      obtain rfl := Except.ok.inj hparts
      exact ⟨[], .nil, .nil⟩
  | cons f fields ih =>
      rw [List.forall_mem_cons] at h
      obtain ⟨name, t, others, hname, ht, hothers, rfl⟩ :=
        Json.entryTexts_cons_eq_ok_iff.mp hparts
      obtain rfl := Except.ok.inj hname
      obtain ⟨ts, hlex, hread⟩ := h.1 level t ht
      obtain ⟨tss, hlexes, hreads⟩ := ih h.2 hothers
      exact ⟨_, .cons (lexes_field f.1 hlex) hlexes, .cons ⟨ts, rfl, hread⟩ hreads⟩

/-- An induction on how the value is made. A list or mapping is tokens between brackets, and each of
its parts is read inside of it. -/
theorem hasLiteral_of_madeOf {v : Value} (hv : v.MadeOf Scalar.isExample) :
    HasLiteral layout v := by
  induction hv with
  | scalar hs =>
      intro level t h
      rw [Json.valueText] at h
      exact exists_lexes_scalarText hs h
  | list _ ih =>
      intro level t h
      obtain ⟨-, parts, hparts, rfl⟩ := Json.valueText_list_eq_ok_iff.mp h
      obtain ⟨tss, hlexes, hreads⟩ := exists_lexes_itemTexts ih hparts
      refine ⟨_, lexes_enclose layout level (fun _ => rfl) (fun _ => rfl) (by decide) (by decide)
        hlexes, ?_⟩
      intro contexts rest
      -- What stands between the brackets is read in a context of its own.
      have hinside := readFrom?_items hreads [] contexts rest
      rw [reread?, Option.bind_map, List.cons_append, List.append_assoc]
      exact hinside
  | map _ _ _ ih =>
      intro level t h
      obtain ⟨-, parts, hparts, rfl⟩ := Json.valueText_map_eq_ok_iff.mp h
      obtain ⟨tss, hlexes, hreads⟩ := exists_lexes_entryTexts ih hparts
      refine ⟨_, lexes_enclose layout level (fun _ => rfl) (fun _ => rfl) (by decide) (by decide)
        hlexes, ?_⟩
      intro contexts rest
      have hinside := readFrom?_fields hreads [] contexts rest
      rw [reread?, Option.bind_map, List.cons_append, List.append_assoc]
      exact hinside

end Literals

/-! ### Values that stay the same -/

/-- Units have sixteen bits. -/
theorem toNat_lt_of_mem_asUnits {s : Text} {c : CodePoint} (h : c ∈ s.asUnits) :
    c.toNat < 0x10000 := by
  obtain ⟨d, -, hd⟩ := List.mem_flatMap.mp h
  obtain ⟨u, hu, rfl⟩ := List.mem_map.mp hd
  have hlt := Yaml.units16_lt hu
  rw [CodePoint.ofNat]
  split
  · simp only [CodePoint.toNat]
    omega
  · rename_i hnot
    have hvalid : u.isValidChar := by
      rw [Nat.isValidChar]
      omega
    have hvalue : (Char.ofNat u).toNat = u := by
      rw [Char.ofNat, dif_pos hvalid]
      rfl
    rw [CodePoint.toNat, hvalue]
    exact hlt

/-- Elements stay the same exactly if each of them does. -/
theorem rereadItems?_eq_self_iff (items : List Value) :
    rereadItems? items = some items ↔ ∀ v ∈ items, reread? v = some v := by
  induction items with
  | nil => simp [rereadItems?]
  | cons v items ih =>
      rw [rereadItems?, List.forall_mem_cons, ← ih]
      cases reread? v with
      | none => simp
      | some w => cases rereadItems? items <;> simp [and_comm]

/-- Fields become others with their names in units and with what their values become. -/
theorem rereadEntries?_eq_some_iff (fields fs : List (Text × Value)) :
    rereadEntries? (fields.map fun f => (.str f.1, f.2)) = some fs ↔
      List.Forall₂ (fun f g => g.1 = f.1.asUnits ∧ reread? f.2 = some g.2) fields fs := by
  induction fields generalizing fs with
  | nil =>
      rw [List.map_nil, rereadEntries?, Option.some_inj, List.forall₂_nil_left_iff, eq_comm]
  | cons f fields ih =>
      simp only [List.map_cons, rereadEntries?, List.forall₂_cons_left_iff, Option.bind_eq_some_iff,
        Option.map_eq_some_iff, ih]
      constructor
      · rintro ⟨w, hw, gs, hgs, rfl⟩
        exact ⟨(f.1.asUnits, w), gs, ⟨rfl, hw⟩, hgs, rfl⟩
      · rintro ⟨⟨name, w⟩, gs, ⟨rfl, hw⟩, hgs, rfl⟩
        exact ⟨w, hw, gs, hgs, rfl⟩

/-- Fields with distinct names are what their writes leave. -/
theorem ofList_eq_self_of_nodup {fields : List (Text × Value)}
    (h : (fields.map Prod.fst).Nodup) : Entries.ofList fields = fields := by
  apply Entries.ofList_eq_self
  rw [List.Nodup, List.pairwise_map] at h
  exact h.imp fun hne => beq_false_of_ne hne

/-- The names that fields come to have are theirs in units. -/
theorem map_fst_of_rereadEntries? {fields fs : List (Text × Value)}
    (h : rereadEntries? (fields.map fun f => (.str f.1, f.2)) = some fs) :
    fs.map Prod.fst = fields.map fun f => f.1.asUnits := by
  have hall := (rereadEntries?_eq_some_iff fields fs).mp h
  clear h
  induction hall with
  | nil => rfl
  | cons hf _ ih => rw [List.map_cons, List.map_cons, hf.1, ih]

/-- A mapping stays the same if its keys and values do. -/
theorem reread?_ofFields_eq_self_iff {fields : List (Text × Value)}
    (hkeys : (fields.map Prod.fst).Nodup) : reread? (.ofFields fields) = some (.ofFields fields) ↔
      ∀ f ∈ fields, f.1.asUnits = f.1 ∧ reread? f.2 = some f.2 := by
  have hsame : (∀ f ∈ fields, f.1.asUnits = f.1 ∧ reread? f.2 = some f.2) ↔
      rereadEntries? (fields.map fun f => (.str f.1, f.2)) = some fields := by
    rw [rereadEntries?_eq_some_iff, List.forall₂_same]
    simp only [eq_comm]
  rw [hsame, Value.ofFields, reread?]
  constructor
  · intro h
    obtain ⟨fs, hfs, hmap⟩ := Option.map_eq_some_iff.mp h
    have hlist : Entries.ofList fs = fields := Value.ofFields_inj.mp hmap
    have hnames := map_fst_of_rereadEntries? hfs
    -- Every key comes out of a string, where nothing is beyond the basic plane.
    have hplane : ∀ f ∈ fields, f.1.asUnits = f.1 := by
      intro f hf
      have hkey : f.1 ∈ fs.map Prod.fst := Entries.mem_keys_ofList (hlist ▸ hf)
      rw [hnames] at hkey
      obtain ⟨g, -, hg⟩ := List.mem_map.mp hkey
      rw [Text.asUnits_eq_self_iff]
      intro c hc
      rw [← hg] at hc
      exact toNat_lt_of_mem_asUnits hc
    -- So no two of them became the same.
    rw [List.map_congr_left hplane] at hnames
    rw [ofList_eq_self_of_nodup (hnames ▸ hkeys)] at hlist
    rw [hfs, hlist]
  · intro h
    rw [h, Option.map_some, ofList_eq_self_of_nodup hkeys]
    rfl

/-- A script has the value itself if and only if there is no null and no truth value in it, and no
text beyond the basic plane. -/
theorem reread?_eq_self_iff {v : Value} (hv : v.MadeOf Scalar.isExample) :
    reread? v = some v ↔ v.MadeOf Scalar.isPortable := by
  induction hv with
  | @scalar x hx =>
      rw [reread?, Value.madeOf_scalar_iff]
      cases x with
      | null | bool _ => simp [rereadScalar?, Scalar.isPortable]
      | int i => simp [rereadScalar?, Scalar.isPortable]
      | str s =>
          simp [rereadScalar?, Scalar.isPortable, Text.asUnits_eq_self_iff]
      | float _ | bytes _ | date _ | moment _ => cases hx
  | @list items _ ih =>
      -- A list comes back as itself if its items do, as nothing else is done to it.
      have hitems : reread? (.list items) = some (.list items) ↔
          rereadItems? items = some items := by
        rw [reread?]
        cases rereadItems? items <;> simp
      rw [hitems, rereadItems?_eq_self_iff, Value.madeOf_list_iff]
      exact forall₂_congr ih
  | @map fields hkeys _ _ ih =>
      have hfields := reread?_ofFields_eq_self_iff hkeys
      have hmade : (Value.ofFields fields).MadeOf Scalar.isPortable ↔ _ :=
        Value.madeOf_ofFields_iff
      rw [Value.ofFields] at hfields hmade
      rw [hfields, hmade, and_iff_right hkeys]
      apply forall₂_congr
      intro f hf
      rw [ih f hf]
      simp [Scalar.isPortable, Text.asUnits_eq_self_iff]

end Script

end RouteDocs
