import Mathlib.Data.List.DropRight
import RouteDocs.Text.Lines

/-!
# `RouteDocs.Proofs.Words`: blanks, words and lines

Tags are taken apart word by word, and lines are trimmed before that. Neither the words of a
text nor what `takeToken` finds depends on the blanks around it (`words_trim`,
`takeToken_trim`). A word with a blank behind it is split off as it is (`words_append`,
`takeToken_append`), and a trimmed text stays one inside of another (`trim_append`). Lines are
broken off one by one (`breakLines_append`). On a single line the margin is the line's own
indentation (`dedent_eq_dropWhile`), and there is nothing to break (`breakLines_eq_singleton`).
-/

set_option autoImplicit false

namespace RouteDocs.Text

/-! ### Blanks around a text -/

/-- The last code point is cut if it is a blank, and keeps everything in front of it if
it is not. -/
theorem trimEnd_concat (s : Text) (c : CodePoint) :
    trimEnd (s ++ [c]) = if isBlank c then trimEnd s else s ++ [c] :=
  List.rdropWhile_concat isBlank s c

/-- A blank in front is cut. -/
theorem trimStart_cons_blank {c : CodePoint} (hc : isBlank c = true) (s : Text) :
    trimStart (c :: s) = trimStart s :=
  List.dropWhile_cons_of_pos hc

/-- A text that does not start with a blank is not cut at its start. -/
theorem trimStart_cons_of_not {c : CodePoint} (hc : isBlank c = false) (s : Text) :
    trimStart (c :: s) = c :: s :=
  List.dropWhile_cons_of_neg (by rw [hc]; nofun)

/-- What is no blank stays in front, whatever is cut behind it. -/
theorem trimEnd_cons_of_not {c : CodePoint} (hc : isBlank c = false) (s : Text) :
    trimEnd (c :: s) = c :: trimEnd s := by
  induction s using List.reverseRecOn with
  | nil => exact (trimEnd_concat [] c).trans (if_neg (by rw [hc]; nofun))
  | append_singleton s d ih =>
      rw [← List.cons_append, trimEnd_concat, trimEnd_concat, ih]
      split <;> rfl

/-- A blank in front stays as long as there is a word. Where there is none, all of the text is
cut. -/
theorem trimEnd_cons_blank {c : CodePoint} (hc : isBlank c = true) (s : Text) :
    trimEnd (c :: s) = [] ∧ trimEnd s = [] ∨ trimEnd (c :: s) = c :: trimEnd s := by
  induction s using List.reverseRecOn with
  | nil => exact .inl ⟨(trimEnd_concat [] c).trans (if_pos hc), rfl⟩
  | append_singleton s d ih =>
      rw [← List.cons_append, trimEnd_concat, trimEnd_concat]
      split
      · exact ih
      · exact .inr rfl

/-- Blanks may be cut at the end first. The other results about `trim` use the order that suits
them. -/
theorem trimStart_trimEnd (s : Text) : trimStart (trimEnd s) = trim s := by
  induction s with
  | nil => rfl
  | cons c s ih =>
      cases hc : isBlank c with
      | false =>
          rw [trim, trimStart_cons_of_not hc, trimEnd_cons_of_not hc, trimStart_cons_of_not hc]
      | true =>
          rw [trim, trimStart_cons_blank hc, ← trim, ← ih]
          obtain ⟨hall, hs⟩ | hend := trimEnd_cons_blank hc s
          · rw [hall, hs]
          · rw [hend, trimStart_cons_blank hc]

/-- Blanks that are cut at the end would have been cut anyway. -/
theorem trim_trimEnd (s : Text) : trim (trimEnd s) = trim s := by
  rw [trim, trimStart_trimEnd, trim]
  exact List.rdropWhile_idempotent isBlank _

/-- Nothing is left to cut at the start a second time. -/
theorem trimStart_trimStart (s : Text) : trimStart (trimStart s) = trimStart s :=
  List.dropWhile_idempotent isBlank s

/-- Blanks that are cut at the start would have been cut anyway. -/
theorem trim_trimStart (s : Text) : trim (trimStart s) = trim s := by
  rw [trim, trimStart_trimStart, trim]

/-- A text without blanks has none at its end. -/
theorem trimEnd_eq_self {s : Text} (h : ∀ c ∈ s, isBlank c = false) : trimEnd s = s := by
  induction s with
  | nil => rfl
  | cons c s ih =>
      rw [List.forall_mem_cons] at h
      rw [trimEnd_cons_of_not h.1, ih h.2]

/-- A text without blanks has none to trim. -/
theorem trim_eq_self {s : Text} (h : ∀ c ∈ s, isBlank c = false) : trim s = s := by
  cases s with
  | nil => rfl
  | cons c s => rw [trim, trimStart_cons_of_not (h c List.mem_cons_self), trimEnd_eq_self h]

/-! ### Words -/

/-- Blanks in front of a text do not count for its first word. -/
theorem takeToken_trimStart (s : Text) : takeToken (trimStart s) = takeToken s := by
  rw [takeToken, takeToken, trimStart, trimStart, List.dropWhile_idempotent]

/-- What stands in front of the first blank is no blank, and so is not cut at the end. -/
theorem takeWhile_trimEnd (s : Text) :
    (trimEnd s).takeWhile (!isBlank ·) = s.takeWhile (!isBlank ·) := by
  induction s with
  | nil => rfl
  | cons c s ih =>
      cases hc : isBlank c with
      | false => rw [trimEnd_cons_of_not hc, List.takeWhile_cons, List.takeWhile_cons, ih]
      | true =>
          have hstop : ∀ t, List.takeWhile (!isBlank ·) (c :: t) = [] := fun t => by simp [hc]
          obtain ⟨hall, -⟩ | hend := trimEnd_cons_blank hc s
          · rw [hall, hstop, List.takeWhile_nil]
          · rw [hend, hstop, hstop]

/-- What stands behind the first word is the same, up to the blanks around it. -/
theorem dropWhile_trimEnd (s : Text) :
    trimStart ((trimEnd s).dropWhile (!isBlank ·)) = trim (s.dropWhile (!isBlank ·)) := by
  induction s with
  | nil => rfl
  | cons c s ih =>
      cases hc : isBlank c with
      | false =>
          rw [trimEnd_cons_of_not hc, List.dropWhile_cons_of_pos (by simp [hc]),
            List.dropWhile_cons_of_pos (by simp [hc]), ih]
      | true =>
          have hstop : ∀ t, List.dropWhile (!isBlank ·) (c :: t) = c :: t := fun t => by simp [hc]
          rw [hstop, ← trimStart_trimEnd]
          obtain ⟨hall, -⟩ | hend := trimEnd_cons_blank hc s
          · rw [hall, List.dropWhile_nil]
          · rw [hend, hstop]

/-- The first word of a text does not depend on the blanks at its end, and what is left behind it
has lost them. -/
theorem takeToken_trimEnd (s : Text) :
    takeToken (trimEnd s) = ((takeToken s).1, trimEnd (takeToken s).2) := by
  rw [takeToken, takeToken, trimStart_trimEnd, trim]
  exact congrArg₂ Prod.mk (takeWhile_trimEnd _) (dropWhile_trimEnd _)

/-- The same where the blanks on both sides are cut, as they are from a tag's content. -/
theorem takeToken_trim (s : Text) :
    takeToken (trim s) = ((takeToken s).1, trimEnd (takeToken s).2) := by
  rw [trim, takeToken_trimEnd, takeToken_trimStart]

/-- A text without the character that divides it is one piece. -/
theorem splitWhere_eq_singleton {α : Type} {p : α → Bool} {s : List α} (h : ∀ c ∈ s, p c = false) :
    splitWhere p s = [s] := by
  induction s with
  | nil => rfl
  | cons c cs ih =>
      rw [List.forall_mem_cons] at h
      rw [splitWhere, h.1, ih h.2]
      rfl

section
variable {m : CodePoint} {s : Text} (h : m ∉ s)
include h

/-- A character that is not in a text differs from all of its code points, as a test. -/
theorem forall_mem_ne_of_not_mem : ∀ c ∈ s, decide (c ≠ m) = true :=
  fun _ hc => decide_eq_true fun heq => h (heq ▸ hc)

/-- A text without the divider is not divided. -/
theorem splitWhere_eq_singleton_of_not_mem : splitWhere (fun c => decide (c = m)) s = [s] :=
  splitWhere_eq_singleton fun _ hc => decide_eq_false fun heq => h (heq ▸ hc)

/-- A text without the divider stands in front of it as a whole. -/
theorem takeWhile_ne_eq_self : s.takeWhile (fun c => decide (c ≠ m)) = s :=
  List.takeWhile_eq_self_iff.mpr (forall_mem_ne_of_not_mem h)

/-- And nothing of it stands behind. -/
theorem dropWhile_ne_eq_nil : s.dropWhile (fun c => decide (c ≠ m)) = [] :=
  List.dropWhile_eq_nil_iff.mpr (forall_mem_ne_of_not_mem h)

/-- What stands in front of a character ends at its first place, whatever follows. -/
theorem takeWhile_ne_append_cons (rest : Text) :
    (s ++ m :: rest).takeWhile (fun c => decide (c ≠ m)) = s := by
  rw [List.takeWhile_append_of_pos (forall_mem_ne_of_not_mem h),
    List.takeWhile_cons_of_neg (by simp), List.append_nil]

/-- What is left from the first place of a character starts with it. -/
theorem dropWhile_ne_append_cons (rest : Text) :
    (s ++ m :: rest).dropWhile (fun c => decide (c ≠ m)) = m :: rest := by
  rw [List.dropWhile_append_of_pos (forall_mem_ne_of_not_mem h),
    List.dropWhile_cons_of_neg (by simp)]

end

/-- There is one piece at least, an empty one if the text is empty. -/
theorem splitWhere_ne_nil {α : Type} (p : α → Bool) (s : List α) : splitWhere p s ≠ [] := by
  cases s with
  | nil => nofun
  | cons c s =>
      rw [splitWhere]
      split
      · nofun
      · split <;> nofun

/-- A cut divides the pieces in front of it from the ones behind it. -/
theorem splitWhere_append_cons {α : Type} {p : α → Bool} {b : α} (hb : p b = true)
    (s t : List α) : splitWhere p (s ++ b :: t) = splitWhere p s ++ splitWhere p t := by
  induction s with
  | nil => rw [List.nil_append, splitWhere, splitWhere, if_pos hb]; rfl
  | cons d s ih =>
      rw [List.cons_append, splitWhere, splitWhere, ih]
      split
      · rfl
      · cases h : splitWhere p s with
        | nil => exact absurd h (splitWhere_ne_nil p s)
        | cons piece pieces => rfl

/-- A blank divides the words in front of it from the ones behind it. -/
theorem words_append_cons {b : CodePoint} (hb : isBlank b = true) (s t : Text) :
    words (s ++ b :: t) = words s ++ words t := by
  rw [words, splitWhere_append_cons hb, List.filter_append]
  rfl

/-- Blanks in front of a text divide no words. -/
theorem words_trimStart (s : Text) : words (trimStart s) = words s := by
  induction s with
  | nil => rfl
  | cons c s ih =>
      cases hc : isBlank c with
      | false => rw [trimStart_cons_of_not hc]
      | true => rw [trimStart_cons_blank hc, ih, words, words, splitWhere, if_pos hc]; rfl

/-- Nor do blanks at its end. The induction is on the end of the text, where they are cut. -/
theorem words_trimEnd (s : Text) : words (trimEnd s) = words s := by
  induction s using List.reverseRecOn with
  | nil => rfl
  | append_singleton s c ih =>
      rw [trimEnd_concat]
      split
      · rename_i hc
        rw [ih, words_append_cons hc]
        exact (List.append_nil _).symm
      · rfl

/-- So the words of a text are those of its trimmed part. -/
theorem words_trim (s : Text) : words (trim s) = words s := by
  rw [trim, words_trimEnd, words_trimStart]

/-! ### Texts that start or end with a word -/

/-- A trimmed text has no blanks in front. -/
theorem trimStart_of_trim {s : Text} (h : trim s = s) : trimStart s = s := by
  have hidem : trimStart (trim s) = trim s := by
    rw [← trimStart_trimEnd, trimStart, trimStart, List.dropWhile_idempotent]
  rwa [h] at hidem

/-- A trimmed text has no blanks at its end. -/
theorem trimEnd_of_trim {s : Text} (h : trim s = s) : trimEnd s = s := by
  have hidem : trimEnd (trim s) = trim s := List.rdropWhile_idempotent isBlank _
  rwa [h] at hidem

/-- A text without blanks in front starts with what is no blank. -/
theorem isBlank_of_trimStart {c : CodePoint} {s : Text} (h : trimStart (c :: s) = c :: s) :
    isBlank c = false := by
  rw [Bool.eq_false_iff]
  intro hc
  have hlength : (trimStart s).length ≤ s.length := (List.dropWhile_suffix _).length_le
  rw [trimStart_cons_blank hc] at h
  rw [h, List.length_cons] at hlength
  omega

/-- A text with more than blanks is not cut altogether. -/
theorem trimStart_ne_nil {s : Text} (h : ∃ c ∈ s, isBlank c = false) : trimStart s ≠ [] := by
  rw [trimStart, ne_eq, List.dropWhile_eq_nil_iff]
  obtain ⟨c, hc, hblank⟩ := h
  intro hall
  rw [hall c hc] at hblank
  exact nomatch hblank

/-- Blanks are cut in front of a text that has more than blanks, and nothing of what follows it. -/
theorem trimStart_append_of_ne_nil {s : Text} (h : trimStart s ≠ []) (t : Text) :
    trimStart (s ++ t) = trimStart s ++ t := by
  rw [trimStart, List.dropWhile_append, if_neg]
  · rfl
  · rwa [List.isEmpty_iff]

/-- A text is its blanks in front and the rest. -/
theorem eq_append_trimStart (s : Text) :
    ∃ blanks, s = blanks ++ trimStart s ∧ ∀ c ∈ blanks, isBlank c = true :=
  ⟨s.takeWhile isBlank, List.takeWhile_append_dropWhile.symm, fun _ => List.mem_takeWhile_imp⟩

/-- A text of blanks is cut, and the cut goes on in what follows. -/
theorem trimStart_append_of_blank {s : Text} (h : ∀ c ∈ s, isBlank c = true) (t : Text) :
    trimStart (s ++ t) = trimStart t :=
  List.dropWhile_append_of_pos h

/-- A text that is cut altogether has only blanks, so it is cut from one side already. -/
theorem trimStart_eq_nil_of_trim {s : Text} (h : trim s = []) : trimStart s = [] := by
  cases hs : trimStart s with
  | nil => rfl
  | cons c rest =>
      have hc : isBlank c = false := isBlank_of_trimStart (hs ▸ trimStart_trimStart s)
      rw [trim, hs, trimEnd_cons_of_not hc] at h
      exact nomatch h

/-- The same as `trimStart_append_of_blank`, for a text that is known to be trimmed to nothing. -/
theorem trimStart_append_of_trim_eq_nil {s : Text} (h : trim s = []) (t : Text) :
    trimStart (s ++ t) = trimStart t :=
  trimStart_append_of_blank (List.dropWhile_eq_nil_iff.mp (trimStart_eq_nil_of_trim h)) t

/-- Behind the trimmed part of a text there are only blanks. Whatever follows is cut at neither. -/
theorem exists_trimStart_append {s : Text} (h : trim s ≠ []) :
    ∃ back, (∀ c ∈ back, isBlank c = true) ∧ ∀ t, trimStart (s ++ t) = trim s ++ (back ++ t) := by
  refine ⟨(trimStart s).rtakeWhile isBlank, fun c => List.mem_rtakeWhile_imp, fun t => ?_⟩
  have hne : trimStart s ≠ [] := by
    intro hnil
    rw [trim, hnil] at h
    exact h rfl
  have hparts : trim s ++ (trimStart s).rtakeWhile isBlank = trimStart s :=
    List.rdropWhile_append_rtakeWhile
  rw [trimStart_append_of_ne_nil hne, ← List.append_assoc, hparts]

/-- What follows a text that starts with a word does not change its start. -/
theorem trimStart_append {s : Text} (h : trimStart s = s) (hne : s ≠ []) (t : Text) :
    trimStart (s ++ t) = s ++ t := by
  cases s with
  | nil => exact absurd rfl hne
  | cons c s => exact trimStart_cons_of_not (isBlank_of_trimStart h) (s ++ t)

/-- What precedes a text that ends with a word does not change its end. -/
theorem trimEnd_append {t : Text} (h : trimEnd t = t) (hne : t ≠ []) (s : Text) :
    trimEnd (s ++ t) = s ++ t := by
  induction t using List.reverseRecOn with
  | nil => exact absurd rfl hne
  | append_singleton t c ih =>
      rw [trimEnd_concat] at h
      split at h
      · have hlength : (trimEnd t).length ≤ t.length := by
          have hdrop := (List.dropWhile_suffix (l := t.reverse) isBlank).length_le
          rw [List.length_reverse] at hdrop
          rwa [trimEnd, dropEndWhile, List.length_reverse]
        rw [h, List.length_append, List.length_singleton] at hlength
        omega
      · rename_i hc
        rw [← List.append_assoc, trimEnd_concat, if_neg hc]

/-- A text between two trimmed ones is trimmed with them: the first holds the start, and the last
holds the end. -/
theorem trim_append {s t : Text} (hs : trim s = s) (hne : s ≠ []) (ht : trim t = t)
    (hne' : t ≠ []) (between : Text) : trim (s ++ between ++ t) = s ++ between ++ t := by
  have hstart : trimStart (s ++ between ++ t) = s ++ between ++ t := by
    rw [List.append_assoc]
    exact trimStart_append (trimStart_of_trim hs) hne _
  rw [trim, hstart, trimEnd_append (trimEnd_of_trim ht) hne']

/-- A word: not empty and without blanks. -/
def IsWord (w : Text) : Prop := w ≠ [] ∧ ∀ c ∈ w, isBlank c = false

/-- A word is trimmed. -/
theorem IsWord.trim_eq {w : Text} (h : IsWord w) : trim w = w := trim_eq_self h.2

/-- A piece is cut where its end is: at the first item that divides. -/
theorem splitWhere_append {α : Type} {p : α → Bool} {s : List α} (h : ∀ c ∈ s, p c = false)
    {b : α} (hb : p b = true) (t : List α) : splitWhere p (s ++ b :: t) = s :: splitWhere p t := by
  rw [splitWhere_append_cons hb, splitWhere_eq_singleton h, List.singleton_append]

/-- A word in front of a blank is the first of the words. -/
theorem words_append {w : Text} (hw : IsWord w) {b : CodePoint} (hb : isBlank b = true)
    (s : Text) : words (w ++ b :: s) = w :: words s := by
  rw [words, words, splitWhere_append hw.2 hb, List.filter_cons_of_pos]
  simpa using hw.1

/-- The first word ends at the first blank, whatever follows. -/
theorem takeToken_append {s : Text} (hs : trimStart s = s) (hne : s ≠ []) {b : CodePoint}
    (hb : isBlank b = true) (t : Text) : (takeToken (s ++ b :: t)).1 = (takeToken s).1 := by
  rw [takeToken, takeToken, trimStart_append hs hne, hs]
  show (s ++ b :: t).takeWhile (!isBlank ·) = s.takeWhile (!isBlank ·)
  clear hs hne
  induction s with
  | nil => simp [hb]
  | cons c s ih => rw [List.cons_append, List.takeWhile_cons, List.takeWhile_cons, ih]

/-- A word in front of a blank is the first token, and what follows it loses its blanks in front. -/
theorem IsWord.takeToken_append {w : Text} (hw : IsWord w) {b : CodePoint} (hb : isBlank b = true)
    (s : Text) : takeToken (w ++ b :: s) = (w, trimStart s) := by
  have hpos : ∀ c ∈ w, (!isBlank c) = true := by
    intro c hc
    rw [hw.2 c hc]
    rfl
  rw [takeToken, trimStart_append (trimStart_of_trim hw.trim_eq) hw.1,
    List.takeWhile_append_of_pos hpos, List.dropWhile_append_of_pos hpos,
    List.takeWhile_cons_of_neg (by simp [hb]), List.dropWhile_cons_of_neg (by simp [hb]),
    List.append_nil, trimStart_cons_blank hb]

/-! ### Lines -/

/-- What is no blank breaks no line: all line breaks are blanks. -/
theorem isLineBreak_of_isBlank {c : CodePoint} (h : isBlank c = false) : isLineBreak c = false := by
  have hblank : ∀ n ∈ [0xa, 0xb, 0xc, 0xd, 0x1c, 0x1d, 0x1e, 0x85, 0x2028, 0x2029],
      (blankRanges.any fun range => range.1 ≤ n && n ≤ range.2) = true := by
    decide
  rw [isLineBreak, ← Bool.not_eq_true, List.contains_iff_mem]
  intro hmem
  exact absurd (h.symm.trans (hblank c.toNat hmem)) nofun

/-- Blanks and tabs, which indent a line, do not break it. -/
theorem isLineBreak_of_isIndent {c : CodePoint} (h : isIndent c = true) :
    isLineBreak c = false := by
  rw [isIndent, Bool.or_eq_true, decide_eq_true_eq, decide_eq_true_eq] at h
  obtain rfl | rfl := h <;> decide

/-- A character that breaks no line goes in front of the first line. -/
theorem breakLines_cons {c : CodePoint} (h : isLineBreak c = false) (s : Text) :
    breakLines (c :: s) = pushFirst c (breakLines s) := by
  have hreturn : ∀ t, c = .char '\r' → s = .char '\n' :: t → False := by
    rintro t rfl -
    exact absurd h (by decide)
  rw [breakLines.eq_3 c s hreturn, h]
  rfl

/-- A line and a line feed in front of a text are a line more in front of its lines. -/
theorem breakLines_append {line : Text} (h : ∀ c ∈ line, isLineBreak c = false) (rest : Text) :
    breakLines (line ++ .char '\n' :: rest) = line :: breakLines rest := by
  induction line with
  | nil =>
      rw [List.nil_append, breakLines.eq_3 _ _ fun _ h => absurd h (by decide)]
      rfl
  | cons c line ih =>
      rw [List.forall_mem_cons] at h
      rw [List.cons_append, breakLines_cons h.1, ih h.2]
      rfl

/-- The characters in front of the first line break are in the first line, with what follows them
up to there. -/
theorem exists_breakLines_eq_cons {start : Text} (h : ∀ c ∈ start, isLineBreak c = false)
    (hne : start ≠ []) (rest : Text) :
    ∃ line others, breakLines (start ++ rest) = (start ++ line) :: others := by
  induction start with
  | nil => exact absurd rfl hne
  | cons c start ih =>
      rw [List.forall_mem_cons] at h
      rw [List.cons_append, breakLines_cons h.1]
      by_cases hstart : start = []
      · subst hstart
        cases hlines : breakLines rest with
        | nil => exact ⟨[], [], by rw [List.nil_append, hlines]; rfl⟩
        | cons line others => exact ⟨line, others, by rw [List.nil_append, hlines]; rfl⟩
      · obtain ⟨line, others, hlines⟩ := ih h.2 hstart
        exact ⟨line, others, by rw [hlines]; rfl⟩

/-- A text without line breaks is one line. An empty text has no line. -/
theorem breakLines_eq_singleton {s : Text} (hne : s ≠ []) (h : ∀ c ∈ s, isLineBreak c = false) :
    breakLines s = [s] := by
  induction s with
  | nil => exact absurd rfl hne
  | cons c s ih =>
      rw [List.forall_mem_cons] at h
      rw [breakLines_cons h.1]
      cases s with
      | nil => rfl
      | cons d s => rw [ih (List.cons_ne_nil d s) h.2]; rfl

/-- What holds of a character and of those in the lines holds when it is put in front of the first
line. -/
theorem forall_mem_pushFirst {P : CodePoint → Prop} {c : CodePoint} {ls : List Text} (hc : P c)
    (h : ∀ line ∈ ls, ∀ d ∈ line, P d) : ∀ line ∈ pushFirst c ls, ∀ d ∈ line, P d := by
  cases ls with
  | nil => simpa [pushFirst] using hc
  | cons line ls =>
      rw [List.forall_mem_cons] at h
      exact List.forall_mem_cons.mpr ⟨List.forall_mem_cons.mpr ⟨hc, h.1⟩, h.2⟩

/-- Lines have none of the characters that a text is broken at. The induction follows
`breakLines`, which takes a carriage return and a line feed together. -/
theorem isLineBreak_of_mem_breakLines (s : Text) :
    ∀ line ∈ breakLines s, ∀ c ∈ line, isLineBreak c = false := by
  induction s using breakLines.induct with
  | case1 => exact fun line h => absurd h List.not_mem_nil
  | case2 s ih =>
      rw [breakLines, List.forall_mem_cons]
      exact ⟨fun c h => absurd h List.not_mem_nil, ih⟩
  | case3 c s hreturn hbreak ih =>
      rw [breakLines.eq_3 c s hreturn, if_pos hbreak, List.forall_mem_cons]
      exact ⟨fun c h => absurd h List.not_mem_nil, ih⟩
  | case4 c s hreturn hbreak ih =>
      rw [breakLines.eq_3 c s hreturn, if_neg hbreak]
      exact forall_mem_pushFirst (Bool.eq_false_iff.mpr hbreak) ih

/-- The margin of a single line is its indentation, so that it is left without. -/
theorem dedent_eq_dropWhile {s : Text} (hline : ∀ c ∈ s, c ≠ .char '\n')
    (hs : s.all isIndent = false) :
    dedent s = s.dropWhile isIndent := by
  have hlines : (lines s).map clearIndent = [s] := by
    rw [lines, splitWhere_eq_singleton (by simpa using hline), List.map_singleton, clearIndent, hs]
    rfl
  have hmargin : margin [s] = s.takeWhile isIndent := by
    have hany : s.any (!isIndent ·) = true := by
      simpa using hs
    simp [margin, hany]
  have hdrop : s.drop (s.takeWhile isIndent).length = s.dropWhile isIndent := by
    have hleft : (s.takeWhile isIndent ++ s.dropWhile isIndent).drop (s.takeWhile isIndent).length
        = s.dropWhile isIndent := List.drop_left
    rwa [List.takeWhile_append_dropWhile] at hleft
  rw [dedent, hlines, hmargin, List.map_singleton, hdrop]
  exact List.intercalate_singleton

end RouteDocs.Text
