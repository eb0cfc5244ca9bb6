import Mathlib.Data.List.Forall2
import RouteDocs.Tag.PropertyBlock

/-!
# `RouteDocs.Proofs.Indentation`: where a property block stands does not matter

A property block is read after its margin has been cut off. The margin is the longest run of
spaces and tabs that all lines with another character begin with. So a run of spaces and tabs
put in front of all these lines is cut off again, whatever mixture of the two it is, and the
other lines may be any runs of spaces and tabs. `parseBlock_indented` says so: the schema is
the same, and so is the failure where there is one.

The margin is a fold of `commonStart` over the indentations of lines.
`foldl_commonStart_append` is the invariant: with one run in front of all indentations, the
fold has it in front as well. `margin_map_moved` carries this to lines, and `dedent_indented`
to the text.
-/

set_option autoImplicit false

namespace RouteDocs

namespace Text

/-- What a line becomes when `w` is put in front of the lines of a text. A line of spaces and
tabs alone may become any other. -/
inductive LineIndented (w : Text) : (before after : Text) → Prop where
  /-- A line with another character. -/
  | text {l : Text} (h : l.all isIndent = false) : LineIndented w l (w ++ l)
  /-- A line of spaces and tabs alone. -/
  | blank {l t : Text} (hl : l.all isIndent = true) (ht : t.all isIndent = true) :
    LineIndented w l t

/-- The text `t` is the text `s` with `w` in front of every line that has another character
than spaces and tabs, a line being ended by a line feed. -/
def Indented (w s t : Text) : Prop := List.Forall₂ (LineIndented w) (lines s) (lines t)

/-! ### The margin -/

/-- A common start in front of two texts is a start of theirs. -/
theorem commonStart_append (w a b : Text) :
    commonStart (w ++ a) (w ++ b) = w ++ commonStart a b := by
  induction w with
  | nil => rfl
  | cons c w ih => rw [List.cons_append, List.cons_append, commonStart, if_pos rfl, ih]; rfl

/-- What stands in front of all indentations stands in front of what they have in common. -/
theorem foldl_commonStart_append (w first : Text) (others : List Text) :
    (others.map (w ++ ·)).foldl commonStart (w ++ first)
      = w ++ others.foldl commonStart first := by
  induction others generalizing first with
  | nil => rfl
  | cons other others ih =>
      rw [List.map_cons, List.foldl_cons, commonStart_append, ih, List.foldl_cons]

/-- The indentations that have a say in the margin. -/
def indentations (ls : List Text) : List Text :=
  (ls.filter (·.any (!isIndent ·))).map (·.takeWhile isIndent)

/-- The margin is what the indentations have in common, from the first on. -/
theorem margin_eq (ls : List Text) :
    margin ls = match indentations ls with
      | [] => []
      | first :: others => others.foldl commonStart first := rfl

/-- A line of spaces and tabs alone has no part in the margin. -/
theorem indentations_cons_of_blank {l : Text} (h : l.all isIndent = true) (ls : List Text) :
    indentations (l :: ls) = indentations ls := by
  rw [indentations, List.filter_cons_of_neg (by simpa using h), indentations]

/-- Any other line has its own indentation. -/
theorem indentations_cons_of_text {l : Text} (h : l.all isIndent = false) (ls : List Text) :
    indentations (l :: ls) = l.takeWhile isIndent :: indentations ls := by
  rw [indentations, List.filter_cons_of_pos (by simpa using h), List.map_cons, indentations]

variable {w : Text}

/-- An indented line, without the spaces and tabs of a line that has nothing else. -/
def moved (w l : Text) : Text := if l.all isIndent then [] else w ++ l

/-- With indentation in front a line still has its other characters. -/
theorem all_isIndent_append {l : Text} (h : l.all isIndent = false) :
    (w ++ l).all isIndent = false := by
  rw [List.all_append, h, Bool.and_false]

/-- A line that was indented, without what it has too much of spaces and tabs. -/
theorem LineIndented.clearIndent_eq {l t : Text} (h : LineIndented w l t) :
    clearIndent t = moved w (clearIndent l) := by
  cases h with
  | text h =>
      rw [clearIndent, clearIndent, moved, all_isIndent_append h, h]
      simp only [Bool.false_eq_true, if_false, h]
  | blank hl ht => rw [clearIndent, clearIndent, hl, ht]; rfl

/-- The same of several lines, one by one. -/
theorem map_clearIndent_of_lineIndented {ls ts : List Text}
    (h : List.Forall₂ (LineIndented w) ls ts) :
    ts.map clearIndent = (ls.map clearIndent).map (moved w) := by
  induction h with
  | nil => rfl
  | cons hline _ ih => rw [List.map_cons, ih, hline.clearIndent_eq]; rfl

/-- Lines that are moved have their indentations moved. -/
theorem indentations_map_moved (hw : ∀ c ∈ w, isIndent c = true) (ls : List Text) :
    indentations (ls.map (moved w)) = (indentations ls).map (w ++ ·) := by
  induction ls with
  | nil => rfl
  | cons l ls ih =>
      rw [List.map_cons]
      cases hl : l.all isIndent with
      | true =>
          have hmoved : moved w l = [] := if_pos hl
          rw [hmoved, indentations_cons_of_blank rfl, indentations_cons_of_blank hl, ih]
      | false =>
          have hmoved : moved w l = w ++ l := if_neg (by simp [hl])
          rw [hmoved, indentations_cons_of_text (all_isIndent_append hl),
            indentations_cons_of_text hl, List.takeWhile_append_of_pos hw, ih, List.map_cons]

/-- Lines that are moved by `w` have a margin that is longer by `w`, where there is any line to
have one. -/
theorem margin_map_moved (hw : ∀ c ∈ w, isIndent c = true) {ls : List Text} {l : Text}
    (hl : l ∈ ls) (htext : l.all isIndent = false) :
    margin (ls.map (moved w)) = w ++ margin ls := by
  have hmem : l.takeWhile isIndent ∈ indentations ls :=
    List.mem_map_of_mem (List.mem_filter.mpr ⟨hl, by simpa using htext⟩)
  rw [margin_eq, margin_eq, indentations_map_moved hw]
  cases hindents : indentations ls with
  | nil => rw [hindents] at hmem; exact absurd hmem List.not_mem_nil
  | cons first others => exact foldl_commonStart_append w first others

/-- Cutting the margin off gives the same text, indented or not. -/
theorem dedent_indented {s t : Text} (hw : ∀ c ∈ w, isIndent c = true) (h : Indented w s t) :
    dedent t = dedent s := by
  have hlines := map_clearIndent_of_lineIndented h
  rw [dedent, dedent, hlines, List.map_map]
  congr 1
  apply List.map_congr_left
  intro l hl
  rw [Function.comp_apply]
  cases htext : l.all isIndent with
  | true =>
      -- Such a line was emptied before the margin is cut off.
      obtain ⟨before, -, rfl⟩ := List.mem_map.mp hl
      have hempty : clearIndent before = [] := by
        rw [clearIndent] at htext ⊢
        split at htext
        · rw [if_pos ‹_›]
        · exact absurd htext ‹_›
      rw [moved, if_pos htext, hempty, List.drop_nil, List.drop_nil]
  | false =>
      have hmoved : moved w l = w ++ l := if_neg (by simp [htext])
      rw [margin_map_moved hw hl htext, hmoved, List.length_append, List.drop_length_add_append]

end Text

namespace Tag

open Text

/-- A property block is read as the same schema, or refused for the same reason, wherever it
stands: with spaces and tabs in front of all lines that have another character, and any spaces
and tabs on the other lines. -/
theorem parseBlock_indented {w s t : Text} (hw : ∀ c ∈ w, isIndent c = true)
    (h : Indented w s t) (tag : Text) : parseBlock tag t = parseBlock tag s := by
  rw [parseBlock, parseBlock, dedent_indented hw h]

/-- A block with a shorthand line, a line of spaces and a tab, and a property over two lines. -/
def looseBlock : Text := "  name string\n \t \n  tag:\n    type: int"

/-- The block with a tab and a space in front, and an empty line in the middle. -/
def looseBlockIndented : Text := "\t   name string\n\n\t   tag:\n\t     type: int"

/-- A block with a blank line in it, indented by a tab and a space, is read as before. -/
theorem parseBlock_indented_looseBlock :
    ((∀ c ∈ Text.ofString "\t ", isIndent c = true) ∧
      Indented "\t " looseBlock looseBlockIndented) ∧
      parseBlock "bodyParam" looseBlockIndented = parseBlock "bodyParam" looseBlock := by
  have hw : ∀ c ∈ Text.ofString "\t ", isIndent c = true := by decide
  have hindented : Indented "\t " looseBlock looseBlockIndented :=
    .cons (.text rfl) (.cons (.blank rfl rfl) (.cons (.text rfl) (.cons (.text rfl) .nil)))
  exact ⟨⟨hw, hindented⟩, parseBlock_indented hw hindented "bodyParam"⟩

end Tag

end RouteDocs
