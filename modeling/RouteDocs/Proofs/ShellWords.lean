import RouteDocs.Text.Lines

/-!
# `RouteDocs.Proofs.ShellWords`: the words of a shell command

A shell takes a command apart into words by the rules of quoting. Between apostrophes everything
stands for itself. Between double quotes a dollar sign, a backquote, a backslash and a double quote
do not, and a backslash in front of a line feed takes the line feed away. `shellWords?` reads a text
by these rules. It reads nothing where a shell would expand something, or where the command would
end and another one begin.

A word is read while its characters are (`run`). What a word says is known from its source: nothing
but quotes, backslashes and line feeds is lost on the way (`countP_of_run`), and between double
quotes a text stands for itself if and only if it `IsQuotable` (`run_double_iff`).
`shellWords?_quoted_iff` says so for a quoted text in front of other words.
-/

set_option autoImplicit false

namespace RouteDocs.Shell

open Text

/-! ### The reader -/

/-- How the next character is read. -/
inductive Mode where
  /-- Outside of quotes. -/
  | plain
  /-- Behind a backslash outside of quotes. -/
  | escaped
  /-- Between apostrophes. -/
  | single
  /-- Between double quotes. -/
  | double
  /-- Behind a backslash between double quotes. -/
  | doubleEscaped
deriving DecidableEq

/-- Blanks between words. -/
def isGap (c : CodePoint) : Bool := c = ' ' || c = '\t'

/-- Characters that quote others, or are lost behind a backslash. -/
def isQuoting (c : CodePoint) : Bool := (ofString "\"'\\\n").contains c

/-- Characters that a word keeps. -/
def isKept (c : CodePoint) : Bool := !isQuoting c

/-- Characters outside of quotes that end a command, or begin an expansion or a pattern. -/
def isActive (c : CodePoint) : Bool := (ofString "|&;<>()$`*?[\n").contains c

/-- What a character of a word adds to it, and how the next one is read. -/
def emit : Mode → CodePoint → Option (Mode × Text)
  | .plain, c =>
    if c = '\\' then some (.escaped, [])
    else if c = '\'' then some (.single, [])
    else if c = '"' then some (.double, [])
    else if isActive c || isGap c then none
    else some (.plain, [c])
  | .escaped, c => some (.plain, if c = '\n' then [] else [c])
  | .single, c => if c = '\'' then some (.plain, []) else some (.single, [c])
  | .double, c =>
    if c = '"' then some (.plain, [])
    else if c = '\\' then some (.doubleEscaped, [])
    else if c = '$' ∨ c = '`' then none
    else some (.double, [c])
  | .doubleEscaped, c =>
    if c = '\n' then some (.double, [])
    else if (ofString "$`\"\\").contains c then some (.double, [c])
    else some (.double, ['\\', c])

/-- Reads words. One may be begun already, and a backslash with a line feed begins none. -/
def readFrom : Mode → (word : Option Text) → Text → Option (List Text)
  | mode, word, [] => if mode = .plain then some word.toList else none
  | mode, word, c :: cs =>
    if mode = .plain ∧ isGap c then (readFrom .plain none cs).map (word.toList ++ ·)
    else if mode = .plain ∧ word = none ∧ (c = '~' ∨ c = '#') then none
    else match emit mode c with
      | none => none
      | some (next, text) =>
        if next = .escaped ∨ (mode = .escaped ∧ c = '\n') then readFrom next word cs
        else readFrom next (some (word.getD [] ++ text)) cs

/-- The words of a simple command in which nothing is expanded. -/
def shellWords? (s : Text) : Option (List Text) := readFrom .plain none s

/-! ### Texts that stand for themselves -/

/-- A character that stands for itself outside of quotes. -/
def isBare (c : CodePoint) : Bool := !isQuoting c && !isActive c && !isGap c

/-- A word that stands for itself outside of quotes. -/
structure IsBareWord (s : Text) : Prop where
  /-- It has a first character, which begins no expansion and no comment. -/
  begins : ∃ c cs, s = c :: cs ∧ c ≠ '~' ∧ c ≠ '#'
  /-- Every character stands for itself. -/
  bare : ∀ c ∈ s, isBare c = true

/-- A text that stands for itself between double quotes. A backslash does so in front of most
characters. -/
inductive IsQuotable : Text → Prop where
  /-- Nothing stands for itself. -/
  | nil : IsQuotable []
  /-- Most characters stand for themselves. -/
  | char {c : CodePoint} {s : Text} (hc : (ofString "\"\\$`").contains c = false)
      (hs : IsQuotable s) : IsQuotable (c :: s)
  /-- A backslash, and a character that it does not quote. -/
  | backslash {c : CodePoint} {s : Text} (hc : (ofString "\"\\$`\n").contains c = false)
      (hs : IsQuotable s) : IsQuotable ('\\' :: c :: s)

example : shellWords? "curl 'a b'\\\n  \"c\\d\"'e' f"
    = some [ofString "curl", "a b", "c\\de", "f"] := by rfl

/-! ### The source of a word -/

/-- What the characters of a word add to it, and how the next one is read. -/
def run : Mode → Text → Option (Mode × Text)
  | mode, [] => some (mode, [])
  | mode, c :: cs =>
    (emit mode c).bind fun r => (run r.1 cs).map fun q => (q.1, r.2 ++ q.2)

variable {mode next : Mode} {s t out word : Text} {c : CodePoint} {ws : List Text}

/-- Characters in a row: the second part is read in the mode that the first one ends in. -/
theorem run_append (mode : Mode) (s t : Text) :
    run mode (s ++ t) = (run mode s).bind fun r => (run r.1 t).map fun q => (q.1, r.2 ++ q.2) := by
  induction s generalizing mode with
  | nil => simp [run]
  | cons c s ih =>
      rw [List.cons_append, run, run]
      cases emit mode c with
      | none => rfl
      | some r => simp [ih, Option.map_bind, Option.bind_map, Function.comp_def]

/-- The first character, and the others in the mode that it leaves. -/
theorem run_cons_eq_some_iff : run mode (c :: s) = some (next, out) ↔
    ∃ between text rest, emit mode c = some (between, text) ∧
      run between s = some (next, rest) ∧ out = text ++ rest := by
  simp only [run, Option.bind_eq_some_iff, Option.map_eq_some_iff, Prod.mk.injEq, Prod.exists]
  constructor
  · rintro ⟨between, text, hemit, last, rest, hrun, rfl, rfl⟩
    exact ⟨between, text, rest, hemit, hrun, rfl⟩
  · rintro ⟨between, text, rest, hemit, hrun, rfl⟩
    exact ⟨between, text, hemit, next, rest, hrun, rfl, rfl⟩

/-- The ways in which a character can be read. -/
inductive Emits : Mode → CodePoint → Mode → Text → Prop where
  | beginEscape : Emits .plain '\\' .escaped []
  | beginSingle : Emits .plain '\'' .single []
  | beginDouble : Emits .plain '"' .double []
  | bare {c : CodePoint} (hc : isBare c = true) : Emits .plain c .plain [c]
  | continued : Emits .escaped '\n' .plain []
  | escaped {c : CodePoint} (hc : c ≠ '\n') : Emits .escaped c .plain [c]
  | endSingle : Emits .single '\'' .plain []
  | single {c : CodePoint} (hc : c ≠ '\'') : Emits .single c .single [c]
  | endDouble : Emits .double '"' .plain []
  | beginDoubleEscape : Emits .double '\\' .doubleEscaped []
  | double {c : CodePoint} (hc : (ofString "\"\\$`").contains c = false) :
      Emits .double c .double [c]
  | doubleContinued : Emits .doubleEscaped '\n' .double []
  | unescaped {c : CodePoint} (hc : (ofString "$`\"\\").contains c = true) :
      Emits .doubleEscaped c .double [c]
  | doubleEscaped {c : CodePoint} (hc : (ofString "\"\\$`\n").contains c = false) :
      Emits .doubleEscaped c .double ['\\', c]

/-- A branch of the reader is one of the ways in which a character can be read, if its result is. -/
theorem Emits.of_some {r : Mode × Text} (h : some r = some (next, out))
    (hr : Emits mode c r.1 r.2) : Emits mode c next out := by
  obtain rfl := Option.some.inj h
  exact hr

/-- What the reader does with a character is one of the ways in `Emits`. The cases are the
branches of the reader. -/
theorem emits_of_emit (h : emit mode c = some (next, out)) : Emits mode c next out := by
  -- Each branch of a mode that gives anything is one way of reading, in the order of the branches.
  cases mode with
  | plain =>
      rw [emit] at h
      split at h
      · rename_i hc
        exact .of_some h (hc ▸ .beginEscape)
      split at h
      · rename_i hc
        exact .of_some h (hc ▸ .beginSingle)
      split at h
      · rename_i hc
        exact .of_some h (hc ▸ .beginDouble)
      split at h
      · exact nomatch h
      · rename_i hslash hsingle hdouble hactive
        obtain ⟨rfl, rfl⟩ := Prod.mk.inj (Option.some.inj h)
        refine .bare ?_
        have hline : c ≠ '\n' := by
          rintro rfl
          exact hactive (by decide)
        rw [Bool.or_eq_true, not_or, Bool.not_eq_true, Bool.not_eq_true] at hactive
        simp [isBare, isQuoting, ofString, hactive.1, hactive.2, hslash, hsingle, hdouble, hline]
  | escaped =>
      obtain ⟨rfl, rfl⟩ := Prod.mk.inj (Option.some.inj h)
      split
      · rename_i hc
        exact hc ▸ .continued
      · rename_i hc
        exact .escaped hc
  | single =>
      rw [emit] at h
      split at h
      · rename_i hc
        exact .of_some h (hc ▸ .endSingle)
      · rename_i hc
        exact .of_some h (.single hc)
  | double =>
      rw [emit] at h
      split at h
      · rename_i hc
        exact .of_some h (hc ▸ .endDouble)
      split at h
      · rename_i hc
        exact .of_some h (hc ▸ .beginDoubleEscape)
      split at h
      · exact nomatch h
      · rename_i hdouble hslash hother
        obtain ⟨rfl, rfl⟩ := Prod.mk.inj (Option.some.inj h)
        rw [not_or] at hother
        exact .double (by simp [ofString, hdouble, hslash, hother.1, hother.2])
  | doubleEscaped =>
      rw [emit] at h
      split at h
      · rename_i hc
        exact .of_some h (hc ▸ .doubleContinued)
      split at h
      · rename_i hc
        exact .of_some h (.unescaped hc)
      · rename_i hline hc
        obtain ⟨rfl, rfl⟩ := Prod.mk.inj (Option.some.inj h)
        refine .doubleEscaped ?_
        simp [ofString] at hc
        simp [ofString, hline, hc]

/-- A character that quotes nothing is kept, and nothing of the kind comes from elsewhere. -/
theorem countP_of_emit {p : CodePoint → Bool} (hp : ∀ c, isQuoting c = true → p c = false)
    (h : emit mode c = some (next, out)) : out.countP p = [c].countP p := by
  have hbackslash : p '\\' = false := hp _ (by decide)
  have hlost : ∀ c, isQuoting c = true → ([] : Text).countP p = [c].countP p := by
    intro c hc
    rw [List.countP_singleton, hp c hc]
    rfl
  -- A character is lost, or added as it is, or added behind the backslash in front of it.
  cases emits_of_emit h with
  | beginEscape | beginSingle | beginDouble | continued | endSingle | endDouble
  | beginDoubleEscape | doubleContinued => exact hlost _ (by decide)
  | bare | escaped | single | double | unescaped => rfl
  | doubleEscaped => rw [List.countP_cons_of_neg (by simp [hbackslash])]

/-- Reading keeps the number of characters of a class without quoting ones: none of them is lost,
and none is added. -/
theorem countP_of_run {p : CodePoint → Bool} (hp : ∀ c, isQuoting c = true → p c = false)
    (h : run mode s = some (next, out)) : out.countP p = s.countP p := by
  induction s generalizing mode out with
  | nil =>
      obtain ⟨-, rfl⟩ := Prod.mk.inj (Option.some.inj h)
      rfl
  | cons c s ih =>
      obtain ⟨between, text, rest, hemit, hrun, rfl⟩ := run_cons_eq_some_iff.mp h
      rw [List.countP_append, countP_of_emit hp hemit, ih hrun, ← List.countP_append]
      rfl

/-- The characters that are lost for certain before a word ends: a quote that is open has to be
closed. -/
def Mode.cost : Mode → Nat
  | .single | .double => 1
  | .plain | .escaped | .doubleEscaped => 0

/-- A character adds one at most. One that opens a quote or closes it adds none, which the cost of
the modes counts. -/
theorem length_of_emit (h : emit mode c = some (next, out)) :
    out.length + mode.cost ≤ next.cost + 1 := by
  cases emits_of_emit h <;> simp [Mode.cost]

/-- No word is longer than its source. -/
theorem length_of_run (h : run mode s = some (next, out)) :
    out.length + mode.cost ≤ s.length + next.cost := by
  induction s generalizing mode out with
  | nil =>
      obtain ⟨rfl, rfl⟩ := Prod.mk.inj (Option.some.inj h)
      exact Nat.le_refl _
  | cons c s ih =>
      obtain ⟨between, text, rest, hemit, hrun, rfl⟩ := run_cons_eq_some_iff.mp h
      have hone := length_of_emit hemit
      have hothers := ih hrun
      rw [List.length_append, List.length_cons]
      omega

/-- A bare character stands for itself. -/
theorem emit_bare (hc : isBare c = true) : emit .plain c = some (.plain, [c]) := by
  have hkind : (isQuoting c = false ∧ isActive c = false) ∧ isGap c = false := by
    simpa [isBare] using hc
  have hquoting : ((c ≠ '"' ∧ c ≠ '\'') ∧ c ≠ '\\') ∧ c ≠ '\n' := by
    simpa [isQuoting, ofString, and_assoc] using hkind.1.1
  simp [emit, hquoting, hkind]

/-- A word that is as long as its source has no quotes in it. -/
theorem isBare_of_run (h : run .plain s = some (.plain, out)) (hlength : s.length ≤ out.length) :
    ∀ c ∈ s, isBare c = true := by
  induction s generalizing out with
  | nil => exact nofun
  | cons c s ih =>
      obtain ⟨between, text, rest, hemit, hrun, rfl⟩ := run_cons_eq_some_iff.mp h
      have hothers := length_of_run hrun
      rw [List.length_append, List.length_cons] at hlength
      cases emits_of_emit hemit with
      | bare hc =>
          rw [List.length_singleton] at hlength
          exact List.forall_mem_cons.mpr ⟨hc, ih hrun (by omega)⟩
      | beginEscape | beginSingle | beginDouble =>
          -- A quote is lost, and no other character makes up for it.
          simp only [Mode.cost, List.length_nil] at hothers hlength
          omega

/-- Outside of quotes a text stands for itself if and only if it has no special characters. -/
theorem run_plain_iff : run .plain s = some (.plain, s) ↔ ∀ c ∈ s, isBare c = true := by
  constructor
  · intro h
    exact isBare_of_run h (Nat.le_refl _)
  · intro h
    induction s with
    | nil => rfl
    | cons c s ih =>
        rw [List.forall_mem_cons] at h
        exact run_cons_eq_some_iff.mpr ⟨.plain, [c], s, emit_bare h.1, ih h.2, rfl⟩

/-- Between apostrophes a text stands for itself if and only if it has none. -/
theorem run_single_iff : run .single (s ++ [.char '\'']) = some (.plain, s) ↔ .char '\'' ∉ s := by
  induction s with
  | nil => exact iff_of_true rfl nofun
  | cons c s ih =>
      rw [List.cons_append, run_cons_eq_some_iff, List.mem_cons, not_or, ← ih]
      constructor
      · rintro ⟨between, text, rest, hemit, hrun, heq⟩
        cases emits_of_emit hemit with
        | endSingle =>
            -- The text would have to be as long as its source, which has an apostrophe in it.
            rw [List.nil_append] at heq
            have hbare := isBare_of_run hrun (by simp [← heq])
            exact absurd (hbare '\'' (by simp)) (by decide)
        | single hc =>
            obtain ⟨-, rfl⟩ := List.cons.inj heq
            exact ⟨Ne.symm hc, hrun⟩
      · rintro ⟨hc, hrun⟩
        exact ⟨.single, [c], s, if_neg (Ne.symm hc), hrun, rfl⟩

/-- Between double quotes a text that may stand for itself does. -/
theorem IsQuotable.run_eq (h : IsQuotable s) :
    run .double (s ++ [.char '"']) = some (.plain, s) := by
  induction h with
  | nil => rfl
  | @char c s hc _ ih =>
      have hemit : emit .double c = some (.double, [c]) := by
        have hne : c ≠ '"' ∧ c ≠ '\\' ∧ c ≠ '$' ∧ c ≠ '`' := by
          simpa [ofString] using hc
        simp [emit, hne]
      exact run_cons_eq_some_iff.mpr ⟨.double, [c], s, hemit, ih, rfl⟩
  | @backslash c s hc _ ih =>
      have hemit : emit .doubleEscaped c = some (.double, [.char '\\', c]) := by
        have hne : c ≠ '"' ∧ c ≠ '\\' ∧ c ≠ '$' ∧ c ≠ '`' ∧ c ≠ '\n' := by
          simpa [ofString] using hc
        simp [emit, ofString, hne]
      have hrest : run .doubleEscaped (c :: (s ++ [.char '"']))
          = some (.plain, .char '\\' :: c :: s) :=
        run_cons_eq_some_iff.mpr ⟨.double, [.char '\\', c], s, hemit, ih, rfl⟩
      exact run_cons_eq_some_iff.mpr ⟨.doubleEscaped, [], _, rfl, hrest, rfl⟩

/-- No other text does: each step of the induction passes over one character, or over a backslash
and a character. -/
theorem isQuotable_of_run :
    ∀ {s : Text}, run .double (s ++ [.char '"']) = some (.plain, s) → IsQuotable s
  | [], _ => .nil
  | c :: s, h => by
      obtain ⟨between, text, rest, hemit, hrun, heq⟩ := run_cons_eq_some_iff.mp h
      cases emits_of_emit hemit with
      | endDouble =>
          rw [List.nil_append] at heq
          have hbare := isBare_of_run hrun (by simp [← heq])
          exact absurd (hbare '"' (by simp)) (by decide)
      | double hc =>
          obtain ⟨-, rfl⟩ := List.cons.inj heq
          exact .char hc (isQuotable_of_run hrun)
      | beginDoubleEscape =>
          cases s with
          | nil => exact absurd hrun (by rintro ⟨⟩)
          | cons d s =>
              obtain ⟨_, kept, others, hemit', hrun', hkept⟩ := run_cons_eq_some_iff.mp hrun
              have hlength := length_of_run hrun'
              simp only [List.append_eq, List.length_append, List.length_singleton] at hlength
              rw [List.nil_append, hkept] at heq
              cases emits_of_emit hemit' with
              | doubleContinued =>
                  -- Two characters are lost, and the quote is still to come.
                  rw [List.nil_append] at heq
                  rw [← heq, List.length_cons, List.length_cons, Mode.cost, Mode.cost] at hlength
                  omega
              | unescaped hd =>
                  obtain ⟨-, hothers⟩ := List.cons.inj heq
                  rw [List.append_eq, List.nil_append] at hothers
                  rw [← hothers, List.length_cons, Mode.cost, Mode.cost] at hlength
                  omega
              | doubleEscaped hd =>
                  obtain ⟨-, hothers⟩ := List.cons.inj heq
                  obtain ⟨-, rfl⟩ := List.cons.inj hothers
                  exact .backslash hd (isQuotable_of_run hrun')

/-- Between double quotes a text stands for itself if and only if it is quotable. -/
theorem run_double_iff : run .double (s ++ [.char '"']) = some (.plain, s) ↔ IsQuotable s :=
  ⟨isQuotable_of_run, IsQuotable.run_eq⟩

/-- Whether a text stands for itself between double quotes can be decided, by reading it. -/
instance (s : Text) : Decidable (IsQuotable s) := decidable_of_iff _ run_double_iff

/-! ### A word and what is behind it -/

/-- Nothing of a word is left in front of a text. -/
def IsApart (s : Text) : Prop := ∀ c, s.head? = some c → isGap c = true

/-- A blank belongs to no word. -/
theorem not_isGap_of_emit (h : emit .plain c = some (next, out)) : isGap c = false := by
  cases emits_of_emit h with
  | beginEscape | beginSingle | beginDouble => rfl
  | bare hc =>
      have hkind : (isQuoting c = false ∧ isActive c = false) ∧ isGap c = false := by
        simpa [isBare] using hc
      exact hkind.2

/-- A blank quotes nothing. -/
theorem not_isQuoting_of_isGap (h : isGap c = true) : isQuoting c = false := by
  simp only [isGap, Bool.or_eq_true, decide_eq_true_eq] at h
  obtain rfl | rfl := h
  · rfl
  · rfl

/-- A blank in front of a command is passed over. -/
theorem shellWords?_gap (hc : isGap c = true) (s : Text) :
    shellWords? (c :: s) = shellWords? s := by
  rw [shellWords?, readFrom, if_pos ⟨rfl, hc⟩, shellWords?]
  cases readFrom .plain none s <;> rfl

/-- So is a backslash with a line feed, by which a command goes on in the next line. -/
theorem shellWords?_continued (s : Text) :
    shellWords? (.char '\\' :: .char '\n' :: s) = shellWords? s := rfl

/-- A word that is begun takes the next character. -/
theorem readFrom_cons (hemit : emit mode c = some (next, out)) (word s : Text) :
    readFrom mode (some word) (c :: s) = readFrom next (some (word ++ out)) s := by
  have hgap : ¬ (mode = .plain ∧ isGap c = true) := by
    rintro ⟨rfl, hc⟩
    rw [not_isGap_of_emit hemit] at hc
    exact nomatch hc
  -- Where the reader leaves the word as it is, there is nothing to add to it.
  have hnothing : next = .escaped ∨ (mode = .escaped ∧ c = '\n') → out = [] := by
    intro h
    cases emits_of_emit hemit <;> simp_all
  rw [readFrom, if_neg hgap, if_neg (by simp), hemit]
  show (if _ then _ else readFrom next (some (word ++ out)) s) = _
  split
  · rename_i h
    rw [hnothing h, List.append_nil]
  · rfl

/-- A part of a word adds its characters to what was begun. -/
theorem readFrom_append (h : run mode s = some (next, out)) (word t : Text) :
    readFrom mode (some word) (s ++ t) = readFrom next (some (word ++ out)) t := by
  induction s generalizing mode out word with
  | nil =>
      obtain ⟨rfl, rfl⟩ := Prod.mk.inj (Option.some.inj h)
      rw [List.nil_append, List.append_nil]
  | cons c s ih =>
      obtain ⟨between, text, rest, hemit, hrun, rfl⟩ := run_cons_eq_some_iff.mp h
      rw [List.cons_append, readFrom_cons hemit, ih hrun, List.append_assoc]

/-- A word that was begun ends where a blank follows, or nothing. -/
theorem readFrom_apart (h : IsApart s) (word : Text) :
    readFrom .plain (some word) s = (shellWords? s).map (word :: ·) := by
  cases s with
  | nil => rfl
  | cons c s =>
      have hc : isGap c = true := h c rfl
      rw [readFrom, if_pos ⟨rfl, hc⟩, shellWords?_gap hc]
      rfl

/-- The end of a word that is begun is found, and the other words are read from there. -/
theorem exists_run_of_readFrom (h : readFrom mode (some word) s = some ws) :
    ∃ source rest out others, s = source ++ rest ∧ run mode source = some (.plain, out) ∧
      IsApart rest ∧ shellWords? rest = some others ∧ ws = (word ++ out) :: others := by
  induction s generalizing mode word with
  | nil =>
      rw [readFrom] at h
      split at h
      · rename_i hmode
        obtain rfl := Option.some.inj h
        exact ⟨[], [], [], [], rfl, by rw [hmode]; rfl, nofun, rfl, by rw [List.append_nil]; rfl⟩
      · exact nomatch h
  | cons c s ih =>
      by_cases hgap : mode = .plain ∧ isGap c = true
      -- A blank outside of quotes ends the word.
      · obtain ⟨rfl, hc⟩ := hgap
        have hapart : IsApart (c :: s) := by
          rintro _ ⟨⟩
          exact hc
        rw [readFrom_apart hapart] at h
        obtain ⟨others, hothers, rfl⟩ := Option.map_eq_some_iff.mp h
        exact ⟨[], c :: s, [], others, rfl, rfl, hapart, hothers, by rw [List.append_nil]⟩
      · cases hemit : emit mode c with
        | none =>
            rw [readFrom, if_neg hgap, if_neg (by simp), hemit] at h
            exact nomatch h
        | some r =>
            rw [readFrom_cons hemit] at h
            obtain ⟨source, rest, out, others, rfl, hrun, hapart, hothers, rfl⟩ := ih h
            exact ⟨c :: source, rest, r.2 ++ out, others, rfl,
              run_cons_eq_some_iff.mpr ⟨_, _, _, hemit, hrun, rfl⟩, hapart, hothers,
              by rw [List.append_assoc]⟩

/-- The first word of a command: where it is, and that it is read from there. -/
structure FirstWord (s word blanks source rest : Text) : Prop where
  /-- The word has its place in the command. -/
  text_eq : s = blanks ++ (source ++ rest)
  /-- There is nothing in front of it but blanks and continuations. -/
  blanks : ∀ c ∈ blanks, isGap c = true ∨ c = '\\' ∨ c = '\n'
  /-- It is what its source says. -/
  run : run .plain source = some (.plain, word)
  /-- It has a source, which does not begin an expansion or a comment. -/
  begins : ∃ c cs, source = c :: cs ∧ c ≠ '~' ∧ c ≠ '#'
  /-- It goes no further. -/
  apart : IsApart rest

/-- A word begins with anything but a blank, a backslash or what is not a word. -/
theorem readFrom_none_cons (hgap : isGap c = false) (hslash : c ≠ '\\') (hstart : c ≠ '~' ∧ c ≠ '#')
    (s : Text) : readFrom .plain none (c :: s) = readFrom .plain (some []) (c :: s) := by
  have hnot : ¬ (Mode.plain = .plain ∧ isGap c = true) := by
    rw [hgap]
    nofun
  have hbegins : ¬ (Mode.plain = .plain ∧ (none : Option Text) = none ∧ (c = '~' ∨ c = '#')) := by
    rintro ⟨-, -, hc | hc⟩
    · exact hstart.1 hc
    · exact hstart.2 hc
  rw [readFrom, readFrom, if_neg hnot, if_neg hnot, if_neg hbegins, if_neg (by simp)]
  cases hemit : emit .plain c with
  | none => rfl
  | some r =>
      have hnext : r.1 ≠ .escaped := by
        obtain ⟨next, out⟩ := r
        rintro rfl
        cases emits_of_emit hemit
        exact hslash rfl
      simp [hnext]

/-- A word is read whatever follows, as long as it is apart. -/
theorem shellWords?_append (hrun : run .plain (c :: s) = some (.plain, word)) (hslash : c ≠ '\\')
    (hstart : c ≠ '~' ∧ c ≠ '#') (hapart : IsApart t) :
    shellWords? (c :: s ++ t) = (shellWords? t).map (word :: ·) := by
  obtain ⟨between, text, rest, hemit, -, -⟩ := run_cons_eq_some_iff.mp hrun
  rw [shellWords?, List.cons_append, readFrom_none_cons (not_isGap_of_emit hemit) hslash hstart,
    ← List.cons_append, readFrom_append hrun, readFrom_apart hapart]
  rfl

/-- A bare word in front of a blank is the first word of a command. -/
theorem IsBareWord.shellWords?_append (h : IsBareWord s) (hapart : IsApart t) :
    shellWords? (s ++ t) = (shellWords? t).map (s :: ·) := by
  obtain ⟨c, cs, rfl, hstart⟩ := h.begins
  refine Shell.shellWords?_append (run_plain_iff.mpr h.bare) ?_ hstart hapart
  rintro rfl
  exact absurd (h.bare '\\' List.mem_cons_self) (by decide)

/-- What is passed over in front of a command does not change its first word. -/
theorem FirstWord.cons {blanks source rest : Text} (h : FirstWord s word blanks source rest)
    (hc : isGap c = true ∨ c = '\\' ∨ c = '\n') :
    FirstWord (c :: s) word (c :: blanks) source rest where
  text_eq := by rw [h.text_eq, List.cons_append]
  blanks := List.forall_mem_cons.mpr ⟨hc, h.blanks⟩
  run := h.run
  begins := h.begins
  apart := h.apart

/-- A word that is begun is the first. -/
theorem exists_firstWord_of_begun (hgap : isGap c = false) (hstart : c ≠ '~' ∧ c ≠ '#')
    (h : readFrom .plain (some []) (c :: s) = some (word :: ws)) : ∃ blanks source rest,
    FirstWord (c :: s) word blanks source rest ∧ shellWords? rest = some ws := by
  obtain ⟨source, rest, out, others, htext, hrun, hapart, hothers, heq⟩ := exists_run_of_readFrom h
  obtain ⟨rfl, rfl⟩ := List.cons.inj heq
  refine ⟨[], source, rest, ⟨htext, nofun, hrun, ?_, hapart⟩, hothers⟩
  cases source with
  | nil =>
      rw [List.nil_append] at htext
      rw [hapart c (by rw [← htext]; rfl)] at hgap
      exact nomatch hgap
  | cons d source =>
      obtain ⟨rfl, -⟩ := List.cons.inj htext
      exact ⟨c, source, rfl, hstart⟩

/-- The first word of a command is found. A backslash may go on with a line feed or begin a word,
so the induction looks at both ways to be behind one. -/
theorem exists_firstWord (h : shellWords? s = some (word :: ws)) : ∃ blanks source rest,
    FirstWord s word blanks source rest ∧ shellWords? rest = some ws := by
  suffices hboth : (shellWords? s = some (word :: ws) → ∃ blanks source rest,
      FirstWord s word blanks source rest ∧ shellWords? rest = some ws) ∧
      (readFrom .escaped none s = some (word :: ws) → ∃ blanks source rest,
        FirstWord ('\\' :: s) word blanks source rest ∧ shellWords? rest = some ws) from hboth.1 h
  clear h
  induction s with
  | nil => exact ⟨nofun, nofun⟩
  | cons c s ih =>
      constructor
      · intro h
        cases hgap : isGap c with
        | true =>
            rw [shellWords?_gap hgap] at h
            obtain ⟨blanks, source, rest, hfirst, hrest⟩ := ih.1 h
            exact ⟨_, _, _, hfirst.cons (.inl hgap), hrest⟩
        | false =>
            by_cases hslash : c = '\\'
            · subst hslash
              exact ih.2 h
            -- A tilde or a number sign does not stand for itself at the start of a word.
            · by_cases hstart : c = '~' ∨ c = '#'
              · rw [shellWords?, readFrom, if_neg (by simp [hgap]), if_pos ⟨rfl, rfl, hstart⟩] at h
                exact nomatch h
              · rw [not_or] at hstart
                rw [shellWords?, readFrom_none_cons hgap hslash hstart] at h
                exact exists_firstWord_of_begun hgap hstart h
      · intro h
        by_cases hline : c = '\n'
        · subst hline
          obtain ⟨blanks, source, rest, hfirst, hrest⟩ := ih.1 h
          exact ⟨_, _, _, (hfirst.cons (.inr (.inr rfl))).cons (.inr (.inl rfl)), hrest⟩
        · have hemit : emit .escaped c = some (.plain, [c]) := by rw [emit, if_neg hline]
          have hbegun : readFrom .escaped none (c :: s) = readFrom .escaped (some []) (c :: s) := by
            simp [readFrom, hemit, hline]
          have hslash : emit .plain '\\' = some (.escaped, []) := rfl
          rw [hbegun, ← List.append_nil [], ← readFrom_cons hslash] at h
          exact exists_firstWord_of_begun rfl (by decide) h

/-! ### Quoted words -/

/-- A word keeps a blank that stands in quotes. -/
theorem isKept_of_isGap (h : isGap c = true) : isKept c = true := by
  rw [isKept, not_isQuoting_of_isGap h]
  rfl

/-- If a text goes on behind its start, the start ends in front of a blank, and a blank that only
the longer of two starts has would be counted there. -/
theorem eq_nil_of_countP_append {between : Text} (hapart : IsApart (between ++ t))
    (hcount : (s ++ between).countP isKept = s.countP isKept) : between = [] := by
  cases between with
  | nil => rfl
  | cons d between =>
      rw [List.countP_append, List.countP_cons_of_pos (isKept_of_isGap (hapart d rfl))] at hcount
      omega

/-- A text is cut in front of a blank in one way only, if what counts in front is known. -/
theorem append_inj_of_countP {s' t' : Text} (ht : IsApart t) (ht' : IsApart t')
    (hcount : s.countP isKept = s'.countP isKept) (h : s ++ t = s' ++ t') : s = s' ∧ t = t' := by
  obtain ⟨between, rfl, rfl⟩ | ⟨between, rfl, rfl⟩ := List.append_eq_append_iff.mp h
  · obtain rfl := eq_nil_of_countP_append ht hcount.symm
    simp
  · obtain rfl := eq_nil_of_countP_append ht' hcount
    simp

/-- What is read from a text is read from all of it up to a blank behind it, if no character is
missing but quotes. -/
theorem run_of_shellWords? (hquote : isQuoting c = true) (hline : c ≠ '\\' ∧ c ≠ '\n')
    (hcount : word.countP isKept = (c :: s).countP isKept) (hapart : IsApart t)
    (h : shellWords? (c :: s ++ t) = some (word :: ws)) :
    run .plain (c :: s) = some (.plain, word) ∧ shellWords? t = some ws := by
  obtain ⟨blanks, source, rest, hfirst, hrest⟩ := exists_firstWord h
  -- The text begins with a quote, so nothing is passed over in front of the word.
  have hnone : blanks = [] := by
    cases blanks with
    | nil => rfl
    | cons b blanks =>
        obtain ⟨rfl, -⟩ := List.cons.inj hfirst.text_eq
        obtain hgap | hslash | hfeed := hfirst.blanks c List.mem_cons_self
        · rw [not_isQuoting_of_isGap hgap] at hquote
          exact nomatch hquote
        · exact absurd hslash hline.1
        · exact absurd hfeed hline.2
  have hsource : (c :: s).countP isKept = source.countP isKept := by
    rw [← hcount, countP_of_run (fun d hd => by rw [isKept, hd]; rfl) hfirst.run]
  have htext := hfirst.text_eq
  rw [hnone, List.nil_append] at htext
  obtain ⟨heq, hbehind⟩ := append_inj_of_countP hapart hfirst.apart hsource htext
  rw [heq, hbehind]
  exact ⟨hfirst.run, hrest⟩

/-- A quoted text in front of other words. -/
theorem shellWords?_quoted_iff
    (hc : (c, mode) = (.char '"', Mode.double) ∨ (c, mode) = (.char '\'', Mode.single))
    (hapart : IsApart t) : shellWords? (c :: (s ++ c :: t)) = some (s :: ws) ↔
      run mode (s ++ [c]) = some (.plain, s) ∧ shellWords? t = some ws := by
  have htext : c :: (s ++ c :: t) = c :: (s ++ [c]) ++ t := by simp
  have hemit : emit .plain c = some (mode, []) := by
    obtain heq | heq := hc
    · obtain ⟨rfl, rfl⟩ := Prod.mk.inj heq
      rfl
    · obtain ⟨rfl, rfl⟩ := Prod.mk.inj heq
      rfl
  have hrun : run .plain (c :: (s ++ [c])) = run mode (s ++ [c]) := by
    rw [run, hemit, Option.bind_some]
    show (run mode (s ++ [c])).map id = _
    rw [Option.map_id_fun, id]
  have hkind : isQuoting c = true ∧ (c ≠ '\\' ∧ c ≠ '\n') ∧ c ≠ '~' ∧ c ≠ '#' := by
    obtain heq | heq := hc
    · obtain ⟨rfl, -⟩ := Prod.mk.inj heq
      decide
    · obtain ⟨rfl, -⟩ := Prod.mk.inj heq
      decide
  obtain ⟨hquote, hline, hstart⟩ := hkind
  rw [htext, ← hrun]
  constructor
  · intro h
    -- The text has nothing more than the word but its quotes.
    refine run_of_shellWords? hquote hline ?_ hapart h
    rw [List.countP_cons_of_neg (by simp [isKept, hquote]), List.countP_append,
      List.countP_cons_of_neg (by simp [isKept, hquote])]
    rfl
  · rintro ⟨hs, ht⟩
    rw [shellWords?_append hs hline.1 hstart hapart, ht]
    rfl

/-- Between double quotes a text is the word that it is if and only if it is quotable. -/
theorem shellWords?_double_iff (hapart : IsApart t) :
    shellWords? (.char '"' :: (s ++ .char '"' :: t)) = some (s :: ws) ↔
      IsQuotable s ∧ shellWords? t = some ws := by
  rw [shellWords?_quoted_iff (.inl rfl) hapart, run_double_iff]

/-- Between apostrophes a text is the word that it is if and only if it has none. -/
theorem shellWords?_single_iff (hapart : IsApart t) :
    shellWords? (.char '\'' :: (s ++ .char '\'' :: t)) = some (s :: ws) ↔
      .char '\'' ∉ s ∧ shellWords? t = some ws := by
  rw [shellWords?_quoted_iff (.inr rfl) hapart, run_single_iff]

end RouteDocs.Shell
