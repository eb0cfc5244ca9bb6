import Mathlib.Algebra.Group.Nat.Defs
import RouteDocs.Json.Reader
import RouteDocs.Json.Writer
import RouteDocs.Yaml.ScalarText

/-!
# `RouteDocs.Proofs.QuotedText`: JSON texts as YAML reads them

A JSON text between double quotes is also YAML, and nearly the same text. The exception are
the characters beyond the basic plane. JSON writes such a character as the escapes of two
surrogates, and YAML reads each escape as a code point of its own. `asUnits` is the text that
comes out, and `quotedText_stringText` says that the reader arrives at it.

What JSON writes is printable ASCII on one line, where a cursor counts one column for each
character (`Cursor.advance_append`).
-/

set_option autoImplicit false

namespace RouteDocs

open Text

/-! ### Code points and their numbers -/

/-- A code point is the one with its number. -/
theorem CodePoint.ofNat_toNat (c : CodePoint) : CodePoint.ofNat c.toNat = c := by
  cases c with
  | surrogate offset =>
      have h : 0xd800 ≤ (surrogate offset).toNat ∧ (surrogate offset).toNat < 0xe000 := by
        simp only [toNat]
        omega
      rw [ofNat, dif_pos h]
      simp only [toNat, Nat.add_sub_cancel_left]
  | char ch =>
      have h : ¬ (0xd800 ≤ (char ch).toNat ∧ (char ch).toNat < 0xe000) := by
        have hvalid := ch.valid
        rw [UInt32.isValidChar, Nat.isValidChar] at hvalid
        simp only [toNat, Char.toNat]
        omega
      rw [ofNat, dif_neg h, toNat, Char.ofNat_toNat]

/-- Code points end where Unicode does. -/
theorem CodePoint.toNat_lt (c : CodePoint) : c.toNat < 0x110000 := by
  cases c with
  | surrogate offset =>
      simp only [toNat]
      omega
  | char ch =>
      have hvalid := ch.valid
      rw [UInt32.isValidChar, Nat.isValidChar] at hvalid
      simp only [toNat, Char.toNat]
      omega

/-- A code point as YAML reads the escapes that JSON writes for it: one beyond the basic plane
becomes two surrogates. -/
def CodePoint.asUnits (c : CodePoint) : Text := (units16 c).map CodePoint.ofNat

/-- A text as YAML reads what JSON writes for it. -/
def Text.asUnits (s : Text) : Text := s.flatMap CodePoint.asUnits

/-- A code point of the first plane is one unit. -/
theorem CodePoint.asUnits_of_lt {c : CodePoint} (h : c.toNat < 0x10000) : c.asUnits = [c] := by
  rw [asUnits, units16, if_pos h, List.map_singleton, ofNat_toNat]

/-- A code point beyond the first plane is two units. -/
theorem CodePoint.length_asUnits_of_le {c : CodePoint} (h : 0x10000 ≤ c.toNat) :
    c.asUnits.length = 2 := by
  rw [asUnits, units16, if_neg (by omega)]
  rfl

/-- The units of a text are those of its code points in a row. -/
theorem Text.asUnits_cons (c : CodePoint) (cs : Text) :
    asUnits (c :: cs) = c.asUnits ++ asUnits cs := List.flatMap_cons

/-- A text has no more code points than units. -/
theorem Text.length_le_length_asUnits (s : Text) : s.length ≤ s.asUnits.length := by
  induction s with
  | nil => exact Nat.le_refl _
  | cons c cs ih =>
      have hone : 1 ≤ c.asUnits.length := by
        rw [CodePoint.asUnits, units16]
        split <;> simp
      rw [asUnits_cons, List.length_append, List.length_cons]
      omega

/-- A text is read as it is if and only if it is in the basic plane. -/
theorem Text.asUnits_eq_self_iff (s : Text) : s.asUnits = s ↔ ∀ c ∈ s, c.toNat < 0x10000 := by
  induction s with
  | nil => simp [asUnits]
  | cons c cs ih =>
      rw [asUnits_cons, List.forall_mem_cons, ← ih]
      by_cases hc : c.toNat < 0x10000
      · simp [CodePoint.asUnits_of_lt hc, hc]
      · constructor
        · intro h
          have hlength := congrArg List.length h
          have hcs := length_le_length_asUnits cs
          rw [List.length_append, CodePoint.length_asUnits_of_le (by omega),
            List.length_cons] at hlength
          omega
        · exact fun h => absurd h.1 hc

/-- The two code points that one beyond the basic plane becomes. -/
theorem CodePoint.surrogate_of_mem_asUnits {c d : CodePoint} (hc : 0x10000 ≤ c.toNat)
    (hd : d ∈ c.asUnits) :
    0xd800 ≤ d.toNat ∧ d.toNat < 0xe000 := by
  have hmax := c.toNat_lt
  have hunit : ∀ u, 0xd800 ≤ u → u < 0xe000 →
      0xd800 ≤ (CodePoint.ofNat u).toNat ∧ (CodePoint.ofNat u).toNat < 0xe000 := by
    intro u hlow hhigh
    rw [CodePoint.ofNat, dif_pos ⟨hlow, hhigh⟩]
    simp only [toNat]
    omega
  rw [asUnits, units16, if_neg (by omega)] at hd
  simp only [List.map_cons, List.map_nil, List.mem_cons, List.not_mem_nil, or_false] at hd
  obtain hd | hd := hd
  · rw [hd]
    exact hunit _ (by omega) (by omega)
  · rw [hd]
    exact hunit _ (by omega) (by omega)

/-- Only a text without surrogates and characters beyond the basic plane is read as one. -/
theorem Text.eq_of_asUnits_eq {s t : Text} (h : s.asUnits = t)
    (ht : ∀ c ∈ t, c.toNat < 0xd800) : s = t := by
  have hplane : ∀ c ∈ s, c.toNat < 0x10000 := by
    intro c hc
    refine Nat.lt_of_not_le fun hbeyond => ?_
    obtain ⟨d, hd⟩ : ∃ d, d ∈ c.asUnits :=
      List.exists_mem_of_length_pos (by rw [CodePoint.length_asUnits_of_le hbeyond]; decide)
    have hsurrogate := CodePoint.surrogate_of_mem_asUnits hbeyond hd
    have hlow := ht d (h ▸ List.mem_flatMap.mpr ⟨c, hc, hd⟩)
    omega
  rw [← h, (asUnits_eq_self_iff s).mpr hplane]

/-- A character that stands for itself in a text of one line: printable ASCII. -/
def CodePoint.IsPrintable (c : CodePoint) : Prop := 0x20 ≤ c.toNat ∧ c.toNat < 0x7f

/-- Whether a code point is printable can be decided. -/
instance (c : CodePoint) : Decidable c.IsPrintable :=
  inferInstanceAs (Decidable (_ ∧ _))

/-! ### Hexadecimal digits -/

namespace Text

/-- A hexadecimal digit is read as its value. -/
theorem hexValue?_hexDigit {d : Nat} (h : d < 16) : hexValue? (hexDigit d) = some d := by
  have hall : ∀ d : Fin 16, hexValue? (hexDigit d) = some d.val := by decide
  exact hall ⟨d, h⟩

/-- Hexadecimal digits are printable. -/
theorem isPrintable_hexDigit {d : Nat} (h : d < 16) : (hexDigit d).IsPrintable := by
  have hall : ∀ d : Fin 16, (hexDigit d).IsPrintable := by decide
  exact hall ⟨d, h⟩

/-- A number in hexadecimal has as many digits as there are places. -/
theorem length_toHex (places n : Nat) : (toHex places n).length = places := by
  induction places generalizing n with
  | zero => rfl
  | succ places ih => rw [toHex, List.length_append, ih, List.length_singleton]

/-- A number in hexadecimal is printable. -/
theorem isPrintable_of_mem_toHex {places n : Nat} {c : CodePoint} (h : c ∈ toHex places n) :
    c.IsPrintable := by
  induction places generalizing n with
  | zero => cases h
  | succ places ih =>
      rw [toHex, List.mem_append, List.mem_singleton] at h
      rcases h with h | rfl
      · exact ih h
      · exact isPrintable_hexDigit (Nat.mod_lt _ (by decide))

/-- The digits that were written are read as what they were written for. -/
theorem ofHex?_toHex (places n : Nat) : ofHex? (toHex places n) = some (n % 16 ^ places) := by
  induction places generalizing n with
  | zero => simp [toHex, ofHex?, Nat.mod_one]
  | succ places ih =>
      have hlast : hexValue? (hexDigit (n % 16)) = some (n % 16) :=
        hexValue?_hexDigit (Nat.mod_lt _ (by decide))
      have hfirst := ih (n / 16)
      rw [ofHex?, Option.map_eq_some_iff] at hfirst
      obtain ⟨values, hvalues, hfold⟩ := hfirst
      rw [toHex, ofHex?, List.mapM_append, hvalues]
      simp only [List.mapM_cons, List.mapM_nil, hlast, bind, Option.bind, pure, Option.map_some,
        List.foldl_append, List.foldl_cons, List.foldl_nil, hfold]
      rw [Nat.pow_succ, Nat.mul_comm (16 ^ places) 16, Nat.mod_mul, Nat.add_comm]

end Text

/-! ### What JSON writes -/

namespace Json

/-- What is written for a character: an escape of one letter, which JSON and YAML both have, the
character itself, or the escapes of its units. -/
inductive Written (c : CodePoint) : Text → Prop where
  | escape (letter : CodePoint) : letter.IsPrintable → Yaml.escapeCode? letter = some c.toNat →
    shortEscape? letter = some c → Written c [.char '\\', letter]
  | itself : c.IsPrintable → c ≠ .char '"' → c ≠ .char '\\' → Written c [c]
  | units : Written c ((units16 c).flatMap fun u => .char '\\' :: .char 'u' :: toHex 4 u)

/-- What JSON writes for a code point is one of the three forms that the reader below knows. -/
theorem written_charText (c : CodePoint) : Written c (charText c) := by
  -- The branches are those of the writer: seven escapes, the character itself, and its units.
  rw [charText]
  split
  · rename_i h
    subst h
    exact .escape (.char '"') (by decide) rfl rfl
  · rename_i hquote
    split
    · rename_i h
      subst h
      exact .escape (.char '\\') (by decide) rfl rfl
    · rename_i hslash
      split
      · rename_i h
        subst h
        exact .escape (.char 'n') (by decide) rfl rfl
      · split
        · rename_i h
          subst h
          exact .escape (.char 'r') (by decide) rfl rfl
        · split
          · rename_i h
            subst h
            exact .escape (.char 't') (by decide) rfl rfl
          · split
            · rename_i h
              have hc : CodePoint.ofNat 0x8 = c := by rw [← h, CodePoint.ofNat_toNat]
              subst hc
              exact .escape (.char 'b') (by decide) rfl rfl
            · split
              · rename_i h
                have hc : CodePoint.ofNat 0xc = c := by rw [← h, CodePoint.ofNat_toNat]
                subst hc
                exact .escape (.char 'f') (by decide) rfl rfl
              · split
                · rename_i h
                  simp only [Bool.and_eq_true, decide_eq_true_eq] at h
                  exact .itself h hquote hslash
                · exact .units

/-- Parts on one line stand right behind the opening bracket, with a comma and a space between
them. -/
theorem Layout.enclose_compact (depth : Nat) (opening closing : CodePoint) (parts : List Text) :
    Layout.compact.enclose depth opening closing parts
      = opening :: ((", " : Text).intercalate parts ++ [closing]) := by
  cases parts with
  | nil => rfl
  | cons part parts => simp [enclose, open_, close, between]

end Json

/-! ### A cursor on one line -/

namespace Yaml

/-- The place after `n` characters of the first line. -/
def Cursor.onLine (n : Nat) (rest : Text) : Cursor := ⟨rest, n, 0, n⟩

/-- What is left on the line. -/
@[simp] theorem Cursor.onLine_rest (n : Nat) (rest : Text) : (onLine n rest).rest = rest := rfl

/-- The index of a place on the line. -/
@[simp] theorem Cursor.onLine_index (n : Nat) (rest : Text) : (onLine n rest).index = n := rfl

/-- There is one line only. -/
@[simp] theorem Cursor.onLine_line (n : Nat) (rest : Text) : (onLine n rest).line = 0 := rfl

/-- On the first line the column is the index. -/
@[simp] theorem Cursor.onLine_column (n : Nat) (rest : Text) : (onLine n rest).column = n := rfl

/-- What is printable breaks no line. -/
theorem isBreak_of_isPrintable {c : CodePoint} (h : c.IsPrintable) : isBreak c = false := by
  obtain ⟨hlow, hhigh⟩ := h
  have hchar : ∀ ch : Char, ch.toNat < 0x20 → c ≠ .char ch := by
    rintro ch hch rfl
    simp only [CodePoint.toNat] at hlow
    omega
  simp only [isBreak, hchar '\n' (by decide), hchar '\r' (by decide), decide_false, Bool.false_or,
    Bool.or_eq_false_iff, decide_eq_false_iff_not]
  omega

namespace Cursor

/-- One step on the line takes one character. -/
theorem next_onLine {c : CodePoint} (h : c.IsPrintable) (n : Nat) (rest : Text) :
    (onLine n (c :: rest)).next = onLine (n + 1) rest := by
  have hreturn : c ≠ .char '\r' := by
    rintro rfl
    exact absurd h.1 (by decide)
  have hmark : c.toNat ≠ 0xfeff := by
    have := h.2
    omega
  simp [next, onLine, hreturn, isBreak_of_isPrintable h, hmark]

/-- A run of characters is passed over in as many steps as it has. -/
theorem advance_append (run : Text) (h : ∀ c ∈ run, c.IsPrintable) (n : Nat) (rest : Text) :
    (onLine n (run ++ rest)).advance run.length = onLine (n + run.length) rest := by
  induction run generalizing n with
  | nil => rfl
  | cons c cs ih =>
      rw [List.length_cons, List.cons_append, advance, next_onLine (h c List.mem_cons_self),
        ih fun d hd => h d (List.mem_cons_of_mem _ hd)]
      congr 1
      omega

end Cursor

/-! ### Reading between double quotes -/

/-- An escape of one letter stands for a code point of the first plane. -/
theorem escapeCode?_lt {letter : CodePoint} {code : Nat} (h : escapeCode? letter = some code) :
    code < 0x10000 := by
  unfold escapeCode? at h
  split at h <;> cases h <;> decide

section
variable (fuel n : Nat) (rest : Text)

/-- The closing quote ends the text. -/
theorem quotedRest_quote :
    quotedRest true (fuel + 1) (.onLine n (.char '"' :: rest))
      = .ok ([], .onLine (n + 1) rest) := by
  have hnext : (Cursor.onLine n (.char '"' :: rest)).next = .onLine (n + 1) rest :=
    Cursor.next_onLine (by decide) n rest
  rw [quotedRest]
  simp [hnext]

/-- An escape of one letter. -/
theorem quotedRest_escape {letter : CodePoint} (hletter : letter.IsPrintable) {code : Nat}
    (hcode : escapeCode? letter = some code) :
    quotedRest true (fuel + 1) (.onLine n (.char '\\' :: letter :: rest))
      = (quotedRest true fuel (.onLine (n + 2) rest)).map
          fun r => (CodePoint.ofNat code :: r.1, r.2) := by
  have hnext : (Cursor.onLine n (.char '\\' :: letter :: rest)).next
      = .onLine (n + 1) (letter :: rest) :=
    Cursor.next_onLine (by decide) n _
  have hnext' : (Cursor.onLine (n + 1) (letter :: rest)).next = .onLine (n + 2) rest :=
    Cursor.next_onLine hletter (n + 1) rest
  have hpeek : (Cursor.onLine (n + 1) (letter :: rest)).peek 0 = some letter := rfl
  rw [quotedRest]
  simp [hnext, hpeek, hcode, hnext']

/-- The escape of a unit. -/
theorem quotedRest_unit {unit : Nat} (hunit : unit < 0x10000) :
    quotedRest true (fuel + 1) (.onLine n (.char '\\' :: .char 'u' :: (toHex 4 unit ++ rest)))
      = (quotedRest true fuel (.onLine (n + 6) rest)).map
          fun r => (CodePoint.ofNat unit :: r.1, r.2) := by
  -- The cursor passes the backslash and the letter, and then four digits.
  have hnext : (Cursor.onLine n (.char '\\' :: .char 'u' :: (toHex 4 unit ++ rest))).next
      = .onLine (n + 1) (.char 'u' :: (toHex 4 unit ++ rest)) := Cursor.next_onLine (by decide) n _
  have hnext' : (Cursor.onLine (n + 1) (.char 'u' :: (toHex 4 unit ++ rest))).next
      = .onLine (n + 2) (toHex 4 unit ++ rest) := Cursor.next_onLine (by decide) (n + 1) _
  have hpeek : (Cursor.onLine (n + 1) (.char 'u' :: (toHex 4 unit ++ rest))).peek 0
      = some (.char 'u') := rfl
  have hadvance : (Cursor.onLine (n + 2) (toHex 4 unit ++ rest)).advance 4
      = .onLine (n + 6) rest := by
    have h := Cursor.advance_append (toHex 4 unit) (fun c => isPrintable_of_mem_toHex) (n + 2) rest
    rwa [length_toHex] at h
  have htake : (toHex 4 unit ++ rest).take 4 = toHex 4 unit := by
    exact List.take_left' (length_toHex 4 unit)
  have hpoint : escapedPoint (toHex 4 unit) 4 = .ok (CodePoint.ofNat unit) := by
    rw [escapedPoint, length_toHex, ofHex?_toHex, Nat.mod_eq_of_lt (by omega)]
    simp only [Nat.lt_irrefl, if_false]
    rw [if_pos (by omega)]
  rw [quotedRest]
  simp [hnext, hpeek, hnext', escapeCode?, escapeWidth?, htake, hpoint, hadvance, bind, Except.bind]

/-- A character that is neither quote, backslash nor space. -/
theorem quotedRest_char {c : CodePoint} (hc : c.IsPrintable) (hquote : c ≠ .char '"')
    (hslash : c ≠ .char '\\') (hspace : c ≠ .char ' ') :
    quotedRest true (fuel + 1) (.onLine n (c :: rest))
      = (quotedRest true fuel (.onLine (n + 1) rest)).map fun r => (c :: r.1, r.2) := by
  have hnext : (Cursor.onLine n (c :: rest)).next = .onLine (n + 1) rest :=
    Cursor.next_onLine hc n rest
  have htab : c ≠ .char '\t' := by
    rintro rfl
    exact absurd hc (by decide)
  rw [quotedRest]
  simp [hnext, hquote, hslash, hspace, htab, isBreak_of_isPrintable hc]

/-- On the line there is no break to take. -/
theorem lineBreak_onLine {c : CodePoint} (hc : c.IsPrintable) :
    (Cursor.onLine n (c :: rest)).lineBreak = ([], .onLine n (c :: rest)) := by
  -- No line break is printable.
  have hreturn : c ≠ .char '\r' := by
    rintro rfl
    exact absurd hc (by decide)
  have hfeed : c ≠ .char '\n' := by
    rintro rfl
    exact absurd hc (by decide)
  have hnext : c.toNat ≠ 0x85 := by
    have := hc.2
    omega
  rw [Cursor.lineBreak]
  simp only [Cursor.onLine_rest]
  split
  · rename_i heq
    exact absurd (List.cons.inj heq).1 hreturn
  · rename_i heq
    obtain ⟨rfl, -⟩ := List.cons.inj heq
    simp [hreturn, hfeed, hnext, isBreak_of_isPrintable hc]
  · rename_i heq
    cases heq

/-- Spaces are kept, up to a character that is none. -/
theorem quotedRest_spaces {run : Text} (hrun : ∀ c ∈ run, c = .char ' ') (hne : run ≠ [])
    {c : CodePoint} (hc : c.IsPrintable) (hspace : c ≠ .char ' ') :
    quotedRest true (fuel + 1) (.onLine n (run ++ c :: rest))
      = (quotedRest true fuel (.onLine (n + run.length) (c :: rest))).map
          fun r => (run ++ r.1, r.2) := by
  have htab : c ≠ .char '\t' := by
    rintro rfl
    exact absurd hc (by decide)
  have hprint : ∀ d ∈ run, d.IsPrintable := by
    intro d hd
    rw [hrun d hd]
    decide
  -- The blanks that are taken up together are the spaces, and no tab follows them.
  have hspan : (Cursor.onLine n (run ++ c :: rest)).span (fun x => x = ' ' || x = '\t')
      = (run, .onLine (n + run.length) (c :: rest)) := by
    have hblank : ∀ d ∈ run, (decide (d = .char ' ') || decide (d = .char '\t')) = true := by
      intro d hd
      simp [hrun d hd]
    have htake : (run ++ c :: rest).takeWhile
        (fun x => decide (x = .char ' ') || decide (x = .char '\t')) = run := by
      rw [List.takeWhile_append_of_pos hblank]
      simp [hspace, htab]
    rw [Cursor.span, Cursor.onLine_rest, htake]
    simp only [Cursor.advance_append run hprint]
  obtain ⟨d, ds, rfl⟩ := List.exists_cons_of_ne_nil hne
  obtain rfl := hrun d List.mem_cons_self
  rw [quotedRest]
  simp only [hspan, lineBreak_onLine _ _ hc]
  simp

end

/-- What is written for a character is printable. -/
theorem isPrintable_of_mem_charText {c d : CodePoint} (h : d ∈ Json.charText c) :
    d.IsPrintable := by
  have hwritten := Json.written_charText c
  generalize Json.charText c = t at hwritten h
  cases hwritten with
  | escape letter hletter _ _ =>
      simp only [List.mem_cons, List.not_mem_nil, or_false] at h
      rcases h with rfl | rfl
      · decide
      · exact hletter
  | itself hc _ _ =>
      rw [List.mem_singleton] at h
      exact h ▸ hc
  | units =>
      obtain ⟨u, -, hd⟩ := List.mem_flatMap.mp h
      simp only [List.mem_cons] at hd
      rcases hd with rfl | rfl | hd
      · decide
      · decide
      · exact isPrintable_of_mem_toHex hd

/-- What is written for a character other than a space starts with another character. -/
theorem exists_charText_eq_cons {c : CodePoint} (h : c ≠ .char ' ') :
    ∃ d ds, Json.charText c = d :: ds ∧ d ≠ .char ' ' := by
  have hwritten := Json.written_charText c
  generalize Json.charText c = t at hwritten
  cases hwritten with
  | escape letter => exact ⟨_, _, rfl, by decide⟩
  | itself => exact ⟨_, _, rfl, h⟩
  | units =>
      rw [units16]
      split <;> exact ⟨_, _, rfl, by decide⟩

/-- A code unit has sixteen bits. -/
theorem units16_lt {c : CodePoint} {u : Nat} (h : u ∈ units16 c) : u < 0x10000 := by
  have hmax := c.toNat_lt
  rw [units16] at h
  split at h
  · rw [List.mem_singleton] at h
    omega
  · simp only [List.mem_cons, List.not_mem_nil, or_false] at h
    omega

/-- The escapes of units are read one by one. -/
theorem quotedRest_units (units : List Nat) (hunits : ∀ u ∈ units, u < 0x10000)
    (n : Nat) {rest : Text}
    {r : Text × Cursor}
    (h : ∀ fuel, rest.length < fuel →
      quotedRest true fuel (.onLine (n + 6 * units.length) rest) = .ok r)
    {fuel : Nat}
    (hfuel : (units.flatMap (fun u => .char '\\' :: .char 'u' :: toHex 4 u) ++
      rest).length < fuel) :
    quotedRest true fuel
        (.onLine n (units.flatMap (fun u => .char '\\' :: .char 'u' :: toHex 4 u) ++ rest))
      = .ok (units.map CodePoint.ofNat ++ r.1, r.2) := by
  -- On the units: each step reads one escape, which is six characters long.
  induction units generalizing n fuel with
  | nil => exact h fuel hfuel
  | cons u us ih =>
      rw [List.forall_mem_cons] at hunits
      obtain ⟨fuel, rfl⟩ : ∃ k, fuel = k + 1 := ⟨fuel - 1, by omega⟩
      simp only [List.flatMap_cons, List.append_assoc, List.cons_append, List.length_cons,
        List.length_append, length_toHex] at hfuel ⊢
      rw [quotedRest_unit fuel n _ hunits.1, ih hunits.2 (n + 6) ?_ ?_]
      · rfl
      · intro k hk
        rw [← h k hk, List.length_cons]
        congr 2
        omega
      · rw [List.length_append]
        omega

/-- One character other than a space is read as its units, whatever follows. -/
theorem quotedRest_charText {c : CodePoint} (hc : c ≠ .char ' ') (n : Nat) {rest : Text}
    {r : Text × Cursor}
    (h : ∀ fuel, rest.length < fuel →
      quotedRest true fuel (.onLine (n + (Json.charText c).length) rest) = .ok r)
    {fuel : Nat} (hfuel : (Json.charText c ++ rest).length < fuel) :
    quotedRest true fuel (.onLine n (Json.charText c ++ rest)) = .ok (c.asUnits ++ r.1, r.2) := by
  have hwritten := Json.written_charText c
  generalize Json.charText c = t at hwritten h hfuel
  obtain ⟨fuel, rfl⟩ : ∃ k, fuel = k + 1 := ⟨fuel - 1, by omega⟩
  -- A character is written as an escape, as itself, or by its units.
  cases hwritten with
  | escape letter hletter hcode _ =>
      rw [CodePoint.asUnits_of_lt (escapeCode?_lt hcode)]
      simp only [List.cons_append, List.nil_append, List.length_cons, List.length_nil] at h hfuel ⊢
      rw [quotedRest_escape fuel n rest hletter hcode, h fuel (by omega), CodePoint.ofNat_toNat]
      rfl
  | itself hprint hquote hslash =>
      have hlt : c.toNat < 0x10000 := by
        have := hprint.2
        omega
      rw [CodePoint.asUnits_of_lt hlt]
      simp only [List.cons_append, List.nil_append, List.length_cons, List.length_nil] at h hfuel ⊢
      rw [quotedRest_char fuel n rest hprint hquote hslash hc, h fuel (by omega)]
      rfl
  | units =>
      apply quotedRest_units _ (fun u => units16_lt) n _ hfuel
      intro k hk
      rw [← h k hk]
      congr 2
      simp only [List.length_flatMap, List.length_cons, length_toHex, List.map_const',
        List.sum_replicate_nat]
      omega

/-- A space is written as itself. -/
theorem charText_space : Json.charText (.char ' ') = [.char ' '] := by decide

/-- Before the closing quote there is a character that is no space. -/
theorem exists_text_eq_append (s rest : Text) :
    ∃ (run : Text) (c : CodePoint) (after : Text),
      s.flatMap Json.charText ++ .char '"' :: rest = run ++ c :: after ∧
      (∀ d ∈ run, d = .char ' ') ∧ c.IsPrintable ∧ c ≠ .char ' ' := by
  induction s with
  | nil => exact ⟨[], .char '"', rest, rfl, by simp, by decide, by decide⟩
  | cons c cs ih =>
      rw [List.flatMap_cons, List.append_assoc]
      by_cases hc : c = .char ' '
      · subst hc
        obtain ⟨run, d, after, heq, hrun, hd⟩ := ih
        exact ⟨.char ' ' :: run, d, after, by rw [charText_space, heq]; rfl,
          List.forall_mem_cons.mpr ⟨rfl, hrun⟩, hd⟩
      · obtain ⟨d, ds, heq, hd⟩ := exists_charText_eq_cons hc
        have hprint : d.IsPrintable := by
          apply isPrintable_of_mem_charText (c := c)
          rw [heq]
          exact List.mem_cons_self
        exact ⟨[], d, ds ++ (cs.flatMap Json.charText ++ .char '"' :: rest), by rw [heq]; rfl,
          by simp, hprint, hd⟩

/-- A space is read as one, also in front of others. -/
theorem quotedRest_space (s : Text) (n : Nat) {rest : Text} {r : Text × Cursor}
    (h : ∀ fuel, (s.flatMap Json.charText ++ .char '"' :: rest).length < fuel →
      quotedRest true fuel (.onLine (n + 1) (s.flatMap Json.charText ++ .char '"' :: rest)) = .ok r)
    {fuel : Nat} (hfuel : (s.flatMap Json.charText ++ .char '"' :: rest).length + 1 < fuel) :
    quotedRest true fuel (.onLine n (.char ' ' :: (s.flatMap Json.charText ++ .char '"' :: rest)))
      = .ok (.char ' ' :: r.1, r.2) := by
  -- The reader takes a whole run of spaces at once, up to the next character.
  obtain ⟨run, c, after, heq, hrun, hc, hspace⟩ := exists_text_eq_append s rest
  rw [heq] at h hfuel ⊢
  obtain ⟨fuel, rfl⟩ : ∃ k, fuel = k + 1 := ⟨fuel - 1, by omega⟩
  have hstep := quotedRest_spaces fuel n after (List.forall_mem_cons.mpr ⟨rfl, hrun⟩)
    (List.cons_ne_nil (.char ' ') run) hc hspace
  rw [List.cons_append, List.length_cons, ← Nat.add_assoc, Nat.add_right_comm] at hstep
  rw [hstep]
  by_cases hne : run = []
  · subst hne
    have hrest : quotedRest true fuel (.onLine (n + 1) (c :: after)) = .ok r := h fuel (by omega)
    rw [List.length_nil, Nat.add_zero, hrest]
    rfl
  · -- The spaces that follow are read in the same step as they were on their own.
    have hrest := h (fuel + 1) (by omega)
    rw [quotedRest_spaces fuel (n + 1) after hrun hne hc hspace] at hrest
    cases hread : quotedRest true fuel (.onLine (n + 1 + run.length) (c :: after)) with
    | error e => rw [hread] at hrest; cases hrest
    | ok r' =>
        rw [hread] at hrest
        cases hrest
        rfl

/-- The text between double quotes is read as the units of what JSON wrote. -/
theorem quotedRest_text (s : Text) (n : Nat) (rest : Text) {fuel : Nat}
    (hfuel : (s.flatMap Json.charText ++ .char '"' :: rest).length < fuel) :
    quotedRest true fuel (.onLine n (s.flatMap Json.charText ++ .char '"' :: rest))
      = .ok (s.asUnits, .onLine (n + (s.flatMap Json.charText).length + 1) rest) := by
  induction s generalizing n fuel with
  | nil =>
      obtain ⟨fuel, rfl⟩ : ∃ k, fuel = k + 1 := ⟨fuel - 1, by omega⟩
      exact quotedRest_quote fuel n rest
  | cons c cs ih =>
      have hrest : ∀ fuel, (cs.flatMap Json.charText ++ .char '"' :: rest).length < fuel → _ :=
        fun fuel => ih (n + (Json.charText c).length)
      rw [List.flatMap_cons, List.append_assoc] at hfuel ⊢
      rw [List.length_append, ← Nat.add_assoc, Text.asUnits_cons]
      by_cases hc : c = .char ' '
      · subst hc
        rw [charText_space] at hrest hfuel ⊢
        exact quotedRest_space cs n hrest (by simpa using hfuel)
      · exact quotedRest_charText hc n hrest hfuel

/-- What JSON writes for a text is read as its units. -/
theorem quotedText_stringText (s : Text) (n : Nat) (rest : Text) {fuel : Nat}
    (hfuel : (Json.stringText s ++ rest).length ≤ fuel) :
    quotedText true fuel (.onLine n (Json.stringText s ++ rest))
      = .ok (s.asUnits, .onLine (n + (Json.stringText s).length) rest) := by
  have htext : Json.stringText s = .char '"' :: (s.flatMap Json.charText ++ [.char '"']) := rfl
  rw [htext] at hfuel ⊢
  simp only [List.cons_append, List.append_assoc, List.nil_append, List.length_cons,
    List.length_append, List.length_nil] at hfuel ⊢
  have hnext := Cursor.next_onLine (c := .char '"') (by decide) n
    (s.flatMap Json.charText ++ .char '"' :: rest)
  rw [quotedText, hnext, quotedRest_text s (n + 1) rest
    (by simp only [List.length_append, List.length_cons]; omega)]
  congr 2
  simp only [Cursor.onLine, Cursor.mk.injEq, true_and]
  omega

end Yaml

end RouteDocs
