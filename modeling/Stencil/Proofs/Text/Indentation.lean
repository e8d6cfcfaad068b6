import Stencil.Node.Layout
import Stencil.Text.Line

/-!
# Indentation composes

Indenting a text puts the same characters in front of every line.  Where lines end depends on two
neighbours, because a carriage return and a line feed are one break, so it has to be shown that a
line ends in the indented text where it did before: the indentation has no break of its own, and no
break is made or torn apart by what stands between the lines now (`Text.lines_indentLines`).

All the rest follows.  The lines without their indentation make up the text, and indentations that
are put on one after the other are one indentation (`Text.indentLines_indentLines`).
-/

set_option autoImplicit false

namespace Stencil

theorem isLineBreak_of_isIndentChar {c : Char} (h : isIndentChar c = true) :
    Text.isLineBreak c = false := by
  rw [isIndentChar, Bool.or_eq_true, beq_iff_eq, beq_iff_eq] at h
  rcases h with rfl | rfl
  · decide
  · decide

namespace Text

variable {indent : Text}

/-- A character that does not make up a pair with the next one ends a line or begins one. -/
theorem lines_cons {c : Char} {t : Text} (hpair : c = '\r' → t.head? ≠ some '\n') :
    lines (c :: t) = if isLineBreak c then [c] :: lines t else consFirst c (lines t) := by
  rw [lines]
  rintro rest rfl rfl
  exact hpair rfl rfl

theorem lines_cons_of_not_isLineBreak {c : Char} (h : isLineBreak c = false) (t : Text) :
    lines (c :: t) = consFirst c (lines t) := by
  have hcr : c ≠ '\r' := by
    rintro rfl
    exact absurd h (by decide)
  rw [lines_cons fun hc => absurd hc hcr, h, if_neg Bool.false_ne_true]

/-- What stands in front of a text without a line break belongs to the first line. -/
theorem lines_append (h : ∀ c ∈ indent, isLineBreak c = false) (t : Text) :
    lines (indent ++ t) = indent.foldr consFirst (lines t) := by
  induction indent with
  | nil => rfl
  | cons c indent ih =>
    rw [List.cons_append, lines_cons_of_not_isLineBreak (h c List.mem_cons_self),
      ih fun d hd => h d (List.mem_cons_of_mem c hd), List.foldr_cons]

theorem foldr_consFirst (indent line : Text) (ls : List Text) :
    indent.foldr consFirst (line :: ls) = (indent ++ line) :: ls := by
  induction indent with
  | nil => rfl
  | cons c indent ih => rw [List.foldr_cons, ih, consFirst, List.cons_append]

/-- An indented text begins with a line feed only if the text does. -/
theorem head?_indentLines (h : ∀ c ∈ indent, isLineBreak c = false) {t : Text}
    (hhead : (indentLines indent t).head? = some '\n') : t.head? = some '\n' := by
  cases indent with
  | nil => rwa [indentLines_nil_left] at hhead
  | cons c indent =>
    rw [indentLines] at hhead
    cases hlines : lines t with
    | nil =>
      rw [hlines] at hhead
      exact absurd hhead (by simp)
    | cons line ls =>
      rw [hlines] at hhead
      obtain rfl : c = '\n' := Option.some.inj hhead
      exact absurd (h _ List.mem_cons_self) (by decide)

/-- The lines of an indented text are known as soon as those behind the first indentation are. -/
theorem lines_indentLines_of_first (h : ∀ c ∈ indent, isLineBreak c = false) {t : Text}
    (hfirst : ∀ line ls, lines t = line :: ls →
      lines (line ++ (ls.map (indent ++ ·)).flatten) = line :: ls.map (indent ++ ·)) :
    lines (indentLines indent t) = (lines t).map (indent ++ ·) := by
  rw [indentLines]
  cases hlines : lines t with
  | nil => rfl
  | cons line ls =>
    rw [List.map_cons, List.flatten_cons, List.append_assoc, lines_append h,
      hfirst line ls hlines, foldr_consFirst]

/-- Behind the first indentation the lines are the first line as it was and the others indented. -/
theorem lines_behind_indent (h : ∀ c ∈ indent, isLineBreak c = false) {t line : Text}
    {ls : List Text} (hlines : lines t = line :: ls) :
    lines (line ++ (ls.map (indent ++ ·)).flatten) = line :: ls.map (indent ++ ·) := by
  induction t using lines.induct generalizing line ls with
  | case1 => exact nomatch hlines
  | case2 t ih =>
    obtain ⟨rfl, rfl⟩ := List.cons.inj (hlines : ['\r', '\n'] :: lines t = line :: ls)
    show ['\r', '\n'] :: lines (indentLines indent t) = _
    rw [lines_indentLines_of_first h fun _ _ => ih]
  | case3 c t hpair hbreak ih =>
    -- the pair of a carriage return and a line feed is not made by the indentation
    have hhead : c = '\r' → t.head? ≠ some '\n' := by
      rintro rfl hhead
      obtain ⟨rest, rfl⟩ := List.head?_eq_some_iff.1 hhead
      exact hpair rest rfl rfl
    rw [lines_cons hhead, if_pos hbreak] at hlines
    obtain ⟨rfl, rfl⟩ := List.cons.inj hlines
    show lines (c :: indentLines indent t) = _
    rw [lines_cons fun hc => mt (head?_indentLines h) (hhead hc), if_pos hbreak,
      lines_indentLines_of_first h fun _ _ => ih]
  | case4 c t hpair hbreak ih =>
    have hc : isLineBreak c = false := Bool.eq_false_iff.2 hbreak
    rw [lines_cons_of_not_isLineBreak hc] at hlines
    cases hrest : lines t with
    | nil =>
      rw [hrest] at hlines
      obtain ⟨rfl, rfl⟩ := List.cons.inj hlines
      exact lines_cons_of_not_isLineBreak hc []
    | cons first others =>
      rw [hrest] at hlines
      obtain ⟨rfl, rfl⟩ := List.cons.inj hlines
      rw [List.cons_append, lines_cons_of_not_isLineBreak hc, ih hrest]
      rfl

/-- **Indenting keeps the lines**: those of the indented text are those of the text, each behind the
indentation. -/
theorem lines_indentLines (h : ∀ c ∈ indent, isLineBreak c = false) (t : Text) :
    lines (indentLines indent t) = (lines t).map (indent ++ ·) :=
  lines_indentLines_of_first h fun _ _ => lines_behind_indent h

/-- The lines of an indented text without the indentation make up the text. -/
theorem flatten_drop_lines_indentLines (h : ∀ c ∈ indent, isLineBreak c = false) (t : Text) :
    ((lines (indentLines indent t)).map (·.drop indent.length)).flatten = t := by
  rw [lines_indentLines h, List.map_map]
  have hdrop : ∀ line ∈ lines t, ((·.drop indent.length) ∘ (indent ++ ·)) line = line :=
    fun line _ => List.drop_left
  rw [List.map_congr_left hdrop, List.map_id', flatten_lines]

/-- **Indentations that are put on one after the other are one indentation.** -/
theorem indentLines_indentLines (outer : Text) {inner : Text}
    (h : ∀ c ∈ inner, isLineBreak c = false) (t : Text) :
    indentLines outer (indentLines inner t) = indentLines (outer ++ inner) t := by
  rw [indentLines, lines_indentLines h, List.map_map, indentLines]
  exact congrArg List.flatten (List.map_congr_left fun line _ => (List.append_assoc _ _ _).symm)

end Text

end Stencil
