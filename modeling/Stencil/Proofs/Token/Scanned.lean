import Mathlib.Data.List.Basic
import Stencil.Token.Scan

/-!
# Scans as a relation

`scanFrom` recurses on the length of what is left, and its result says neither which step made which
token nor how much of the source each step used up.  `Scans d c source tokens e` says all of it:
from the cursor `c`, under the delimiters `d`, the text `source` is scanned to its end `e`, and
`tokens` is what comes out.  Its constructors are the steps of the scanner, so a fact about all
tokens of a template is an induction on it.

`scans_scan` is the way in.  The rest of the file says what a step leaves behind: a tag is a stretch
of the source that begins with the opening delimiter and ends in the closing one
(`Tag.exists_raw_of_read`), and neither of them holds a blank.
-/

set_option autoImplicit false

namespace Stencil

/-! ## Delimiters and blanks -/

theorem isBlank_eq_false_of_isDelimiter {t : Text} (h : isDelimiter t = true) {c : Char}
    (hc : c ∈ t) : isBlank c = false := by
  rw [isDelimiter, Bool.and_eq_true, List.all_eq_true] at h
  have hchar := h.2 c hc
  rw [isDelimiterChar, Bool.and_eq_true, Bool.not_eq_true'] at hchar
  exact hchar.1

namespace Delimiters

theorem isBlank_of_mem_opening (d : Delimiters) {c : Char} (hc : c ∈ d.opening) :
    isBlank c = false :=
  isBlank_eq_false_of_isDelimiter d.isDelimiter_opening hc

theorem isBlank_of_mem_closing (d : Delimiters) {c : Char} (hc : c ∈ d.closing) :
    isBlank c = false :=
  isBlank_eq_false_of_isDelimiter d.isDelimiter_closing hc

/-- The opening delimiter begins with a character that is no blank. -/
theorem exists_opening (d : Delimiters) :
    ∃ c rest, d.opening = c :: rest ∧ isBlank c = false := by
  obtain ⟨c, rest, h⟩ := List.exists_cons_of_ne_nil d.opening_ne_nil
  exact ⟨c, rest, h, d.isBlank_of_mem_opening (h ▸ List.mem_cons_self)⟩

/-- The closing delimiter ends in a character that is no blank. -/
theorem exists_closing (d : Delimiters) :
    ∃ front c, d.closing = front ++ [c] ∧ isBlank c = false := by
  obtain ⟨front, c, h⟩ := (List.eq_nil_or_concat' d.closing).resolve_left d.closing_ne_nil
  exact ⟨front, c, h, d.isBlank_of_mem_closing (by simp [h])⟩

end Delimiters

/-! ## What a tag is made of -/

/-- What is read as a tag stands where the reading started, between the opening delimiter and the
closing one. -/
theorem Tag.exists_inside_of_read {d : Delimiters} {start : Cursor} {source rest : Text} {tag : Tag}
    (h : Tag.read d start source = .ok (tag, rest)) :
    tag.start = start ∧ ∃ inside, tag.raw = d.opening ++ (inside ++ d.closing) := by
  simp only [Tag.read] at h
  split at h
  · simp at h
  · next body trimAfter behind _ =>
    split at h
    · simp at h
    · simp only [Except.ok.injEq, Prod.mk.injEq] at h
      obtain ⟨rfl, rfl⟩ := h
      refine ⟨rfl, ?_⟩
      cases trimAfter with
      | false =>
        exact ⟨trimSource _ ++ (TagForm.startMark _ ++ (body ++ TagForm.endMark _)),
          by simp [Terminator.source]; rfl⟩
      | true =>
        exact ⟨trimSource _ ++ (TagForm.startMark _ ++ (body ++ (TagForm.endMark _ ++ ['~']))),
          by simp [Terminator.source]; rfl⟩

/-- What is read as a tag begins with the opening delimiter, ends in the closing one, and stands
where the reading started. -/
theorem Tag.exists_raw_of_read {d : Delimiters} {start : Cursor} {source rest : Text} {tag : Tag}
    (h : Tag.read d start source = .ok (tag, rest)) :
    tag.start = start ∧ (∃ inside, tag.raw = d.opening ++ inside) ∧
      ∃ inside, tag.raw = inside ++ d.closing := by
  obtain ⟨hstart, inside, hraw⟩ := Tag.exists_inside_of_read h
  exact ⟨hstart, ⟨_, hraw⟩, d.opening ++ inside, by rw [hraw, List.append_assoc]⟩

/-- An escaped tag begins with the opening delimiter. -/
theorem exists_splitEscaped {d : Delimiters} {source : Text} (hs : d.opening <+: source) :
    ∃ inside, (splitEscaped d source).1 = d.opening ++ inside := by
  obtain ⟨behind, rfl⟩ := hs
  unfold splitEscaped
  split
  · exact ⟨behind, rfl⟩
  · exact ⟨_, rfl⟩

/-- An escaped tag that does not reach the end of the source ends in the closing delimiter. -/
theorem exists_splitEscaped_closing {d : Delimiters} {source : Text}
    (h : (splitEscaped d source).2 ≠ []) :
    ∃ inside, (splitEscaped d source).1 = inside ++ d.closing := by
  unfold splitEscaped at h ⊢
  split at h
  · exact absurd rfl h
  · next body found _ => exact ⟨d.opening ++ body, by simp⟩

/-! ## The relation -/

/-- From a cursor and under some delimiters, a text is scanned to its end and gives rise to some
tokens. -/
inductive Scans : Delimiters → Cursor → Text → List Token → Cursor → Prop
  /-- At the end there is nothing to scan. -/
  | finished (d : Delimiters) (c : Cursor) : Scans d c [] [] c
  /-- Without another opening delimiter, all that is left is text. -/
  | plain {d : Delimiters} {c : Cursor} {source : Text} (hne : source ≠ [])
      (hsplit : Text.splitAtFirst d.opening source = none) :
      Scans d c source [.text source c] (c.advance source)
  /-- An opening delimiter behind a backslash begins an escaped tag. -/
  | escaped {d : Delimiters} {c e : Cursor} {source run found : Text} {tokens : List Token}
      (hsplit : Text.splitAtFirst d.opening source = some (run ++ ['\\'], found))
      (hrest : Scans d ((c.advance (run ++ ['\\'])).advance (splitEscaped d found).1)
        (splitEscaped d found).2 tokens e) :
      Scans d c source
        (Token.ofRun run c ++
          .text (splitEscaped d found).1 (c.advance (run ++ ['\\'])) :: tokens) e
  /-- Any other opening delimiter begins a tag. -/
  | tag {d : Delimiters} {c e : Cursor} {source run found behind : Text} {tag : Tag}
      {tokens : List Token} (hsplit : Text.splitAtFirst d.opening source = some (run, found))
      (hrun : run.getLast? ≠ some '\\')
      (hread : Tag.read d (c.advance run) found = .ok (tag, behind))
      (hrest : Scans (tag.delimitersAfter d) ((c.advance run).advance tag.raw) behind tokens e) :
      Scans d c source (Token.ofRun run c ++ .tag tag :: tokens) e

/-- A scan that comes to the end of its source is in the relation. -/
theorem scans_scanFrom (d : Delimiters) (c : Cursor) (source : Text) {e : Cursor}
    (h : (scanFrom d c source).finish = .ok e) :
    Scans d c source (scanFrom d c source).tokens e := by
  fun_induction scanFrom d c source with
  | case1 d c source hnil =>
    obtain rfl := List.isEmpty_iff.1 hnil
    obtain rfl := Except.ok.inj h
    exact .finished d c
  | case2 d c source hne hsplit =>
    obtain rfl := Except.ok.inj h
    exact .plain (by simpa using hne) hsplit
  | case3 d c source hne run found hsplit here hback escaped _ ih =>
    have hrun : run = run.dropLast ++ ['\\'] := (List.dropLast_append_getLast? _ hback).symm
    rw [hrun] at hsplit
    have hstep := Scans.escaped (c := c) hsplit (by rw [← hrun]; exact ih h)
    rw [← hrun] at hstep
    simpa [Scan.prepend] using hstep
  | case4 d c source hne run found hsplit here hback err hread => simp at h
  | case5 d c source hne run found hsplit here hback tag rest hread _ ih =>
    have hstep := Scans.tag hsplit hback hread (ih h)
    simpa [Scan.prepend] using hstep

/-- A template that can be scanned is in the relation. -/
theorem scans_scan {d : Delimiters} {source : Text} {e : Cursor}
    (h : (scan d source).finish = .ok e) : Scans d .start source (scan d source).tokens e :=
  scans_scanFrom d .start source h

end Stencil
