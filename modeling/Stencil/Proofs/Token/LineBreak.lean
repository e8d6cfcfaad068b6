import Mathlib.Data.List.Forall2
import Stencil.Proofs.Text.LineBreak
import Stencil.Proofs.Token.Printing
import Stencil.Proofs.Token.Scanned

/-!
# Scanning with other line breaks

The marks and delimiters that a scan looks for hold no blanks, so it finds them where they were when
every line feed gets a carriage return in front of it.  The tags are the same as long as no line
break stands inside one, and a carriage return counts for a column at the end of a line only, so
whatever stands behind it keeps its line and column.

* `Tag.read_crlf` — a tag without line breaks is read as the same tag.
* `Scans.crlf` — the tokens of a source whose tags have no line breaks are the same up to line
  breaks in the texts (`Token.CrlfOf`).
-/

set_option autoImplicit false

namespace Stencil

open Text (crlf IsInline)

namespace Cursor

/-- Two cursors stand at the same line and column behind texts with either kind of line break. -/
theorem position_advance_crlf {c c' : Cursor} (h : c.position = c'.position) (t : Text) :
    (c.advance t).position = (c'.advance (crlf t)).position := by
  induction t generalizing c c' with
  | nil => exact h
  | cons a t ih =>
    obtain ⟨hline, hcolumn⟩ := Position.mk.inj h
    by_cases ha : a = '\n'
    · subst ha
      exact ih (congrArg (Position.mk · 1) (congrArg (· + 1) hline))
    · rw [Text.crlf_cons_of_ne ha]
      refine ih ?_
      rw [step, step, if_neg ha, if_neg ha]
      exact congrArg₂ Position.mk hline (congrArg (· + 1) hcolumn)

end Cursor

namespace Delimiters

theorem isInline_opening (d : Delimiters) : IsInline d.opening :=
  Text.isInline_of_isBlank fun _ => d.isBlank_of_mem_opening

theorem isInline_closing (d : Delimiters) : IsInline d.closing :=
  Text.isInline_of_isBlank fun _ => d.isBlank_of_mem_closing

/-- No line break is changed in an opening delimiter. -/
theorem crlf_opening_append (d : Delimiters) (t : Text) :
    crlf (d.opening ++ t) = d.opening ++ crlf t := by
  rw [Text.crlf_append, Text.crlf_eq_self d.isInline_opening.newline]

/-- An opening delimiter is found where it was. -/
theorem splitAtFirst_crlf {d : Delimiters} {source run found : Text}
    (h : Text.splitAtFirst d.opening source = some (run, found)) :
    Text.splitAtFirst d.opening (crlf source) = some (crlf run, crlf found) := by
  rw [Text.splitAtFirst_crlf d.isInline_opening d.opening_ne_nil, h]
  rfl

end Delimiters

/-! ## The end of a tag -/

namespace Terminator

/-- A mark that ends a tag has no line breaks, and neither has the delimiter behind it. -/
structure IsInline (e : Terminator) : Prop where
  /-- The mark has none. -/
  mark : Text.IsInline e.mark
  /-- The delimiter has none. -/
  closing : Text.IsInline e.closing
  /-- The delimiter is not empty. -/
  closing_ne_nil : e.closing ≠ []

variable {e : Terminator}

theorem IsInline.trimmed_closing (h : e.IsInline) : Text.IsInline ('~' :: e.closing) :=
  ⟨by simp [h.closing.newline], by simp [h.closing.carriage]⟩

theorem IsInline.match?_crlf (h : e.IsInline) (t : Text) :
    e.match? (crlf t) = (e.match? t).map fun (trim, rest) => (trim, crlf rest) := by
  rw [match?, match?, Text.stripPrefix?_crlf h.mark]
  cases Text.stripPrefix? e.mark t with
  | none => rfl
  | some u =>
    simp only [Option.map_some, Text.stripPrefix?_crlf h.trimmed_closing,
      Text.stripPrefix?_crlf h.closing]
    cases Text.stripPrefix? ('~' :: e.closing) u with
    | some rest => rfl
    | none => cases Text.stripPrefix? e.closing u <;> rfl

/-- No end of a tag begins with a line break. -/
theorem IsInline.match?_eq_none (h : e.IsInline) {c : Char} (hc : c = '\n' ∨ c = '\r') (t : Text) :
    e.match? (c :: t) = none := by
  cases hmatch : e.match? (c :: t) with
  | none => rfl
  | some found =>
    obtain ⟨trim, rest⟩ := found
    have hsource : Text.IsInline (e.source trim) ∧ e.source trim ≠ [] := by
      have hend : Text.IsInline (if trim then '~' :: e.closing else e.closing) := by
        cases trim with
        | false => exact h.closing
        | true => exact h.trimmed_closing
      refine ⟨⟨?_, ?_⟩, ?_⟩
      · simp [source, h.mark.newline, hend.newline]
      · simp [source, h.mark.carriage, hend.carriage]
      · cases trim <;> simp [source, h.closing_ne_nil]
    obtain ⟨b, more, hb⟩ := List.exists_cons_of_ne_nil hsource.2
    have hstart := append_of_match? hmatch
    rw [hb, List.cons_append] at hstart
    obtain ⟨rfl, -⟩ := List.cons.inj hstart
    obtain ⟨hnewline, hcarriage, -⟩ := (hb ▸ hsource.1).of_cons
    exact absurd hc (not_or.2 ⟨hnewline, hcarriage⟩)

/-- A tag ends where it ended. -/
theorem IsInline.find?_crlf (h : e.IsInline) (t : Text) :
    e.find? (crlf t) =
      (e.find? t).map fun (body, trim, rest) => (crlf body, trim, crlf rest) := by
  induction t with
  | nil =>
    rw [Text.crlf_nil, find?]
    cases hmatch : e.match? [] with
    | none => rfl
    | some found =>
      obtain ⟨trim, rest⟩ := found
      have hend := h.match?_crlf []
      rw [Text.crlf_nil, hmatch] at hend
      obtain ⟨-, hrest⟩ := Prod.mk.inj (Option.some.inj hend)
      simp [← hrest]
  | cons c t ih =>
    by_cases hc : c = '\n'
    · subst hc
      rw [Text.crlf_newline_cons, find?, h.match?_eq_none (.inr rfl), find?,
        h.match?_eq_none (.inl rfl), ih, find?, h.match?_eq_none (.inl rfl)]
      cases e.find? t <;> rfl
    · have hend := h.match?_crlf (c :: t)
      rw [Text.crlf_cons_of_ne hc] at hend ⊢
      rw [find?, find?, hend, ih]
      cases e.match? (c :: t) with
      | some found => rfl
      | none =>
        cases e.find? t with
        | none => rfl
        | some found => simp [Text.crlf_cons_of_ne hc]

end Terminator

/-! ## One tag -/

theorem splitTrim_crlf (t : Text) :
    splitTrim (crlf t) = ((splitTrim t).1, crlf (splitTrim t).2) := by
  fun_cases splitTrim t with
  | case1 u => rfl
  | case2 t h =>
    rw [splitTrim]
    intro u hu
    obtain ⟨u, rfl⟩ := Text.exists_append_of_crlf ['~'] ⟨by decide, by decide⟩ hu
    exact h u rfl

theorem TagForm.read_crlf (d : Delimiters) (t : Text) :
    TagForm.read d (crlf t) = ((TagForm.read d t).1, crlf (TagForm.read d t).2) := by
  -- whichever form is read off the text with other line breaks, the text has its mark as well
  fun_cases TagForm.read d t with
  | case1 u => rfl
  | case2 u h =>
    rw [show crlf ('!' :: u) = '!' :: crlf u from rfl, TagForm.read]
    intro v hv
    obtain ⟨v, rfl⟩ := Text.exists_append_of_crlf ['-', '-'] ⟨by decide, by decide⟩ hv
    exact h v rfl
  | case3 u => rfl
  | case4 u hd => rw [show crlf ('\x7b' :: u) = '\x7b' :: crlf u from rfl, TagForm.read, if_pos hd]
  | case5 u hd =>
    rw [show crlf ('\x7b' :: u) = '\x7b' :: crlf u from rfl, TagForm.read, if_neg hd]
  | case6 t h₁ h₂ h₃ h₄ =>
    rw [TagForm.read]
    · intro v hv
      obtain ⟨v, rfl⟩ := Text.exists_append_of_crlf ['!', '-', '-'] ⟨by decide, by decide⟩ hv
      exact h₁ v rfl
    · intro v hv
      obtain ⟨v, rfl⟩ := Text.exists_append_of_crlf ['!'] ⟨by decide, by decide⟩ hv
      exact h₂ v rfl
    · intro v hv
      obtain ⟨v, rfl⟩ := Text.exists_append_of_crlf ['='] ⟨by decide, by decide⟩ hv
      exact h₃ v rfl
    · intro v hv
      obtain ⟨v, rfl⟩ := Text.exists_append_of_crlf ['\x7b'] ⟨by decide, by decide⟩ hv
      exact h₄ v rfl

theorem Terminator.isInline_of_endMark (form : TagForm) (d : Delimiters) :
    Terminator.IsInline ⟨form.endMark, d.closing⟩ := by
  refine ⟨?_, d.isInline_closing, d.closing_ne_nil⟩
  cases form <;> exact ⟨by simp [TagForm.endMark], by simp [TagForm.endMark]⟩

/-- **A tag without line breaks is the same tag**, whatever the line breaks behind it are. -/
theorem Tag.read_crlf {d : Delimiters} {c : Cursor} {source rest : Text} {tag : Tag}
    (hs : d.opening <+: source) (h : Tag.read d c source = .ok (tag, rest))
    (hraw : '\n' ∉ tag.raw) (c' : Cursor) :
    Tag.read d c' (crlf source) = .ok ({ tag with start := c' }, crlf rest) := by
  obtain ⟨behind, rfl⟩ := hs
  rw [Tag.read, List.drop_left] at h
  rw [d.crlf_opening_append, Tag.read, List.drop_left]
  simp only [splitTrim_crlf, TagForm.read_crlf, (Terminator.isInline_of_endMark _ d).find?_crlf]
  split at h
  · exact absurd h (by simp)
  · next body trim after hfind =>
    rw [hfind]
    split at h
    · exact absurd h (by simp)
    · next kind content hbody =>
      obtain ⟨rfl, rfl⟩ := Prod.mk.inj (Except.ok.inj h)
      -- the body is a part of the tag
      have hinside : '\n' ∉ body := fun hmem => hraw (by simp [hmem])
      simp only [Option.map_some, Text.crlf_eq_self hinside, hbody]

/-- An escaped tag reaches as far as it did. -/
theorem splitEscaped_crlf {d : Delimiters} {source : Text} (hs : d.opening <+: source) :
    splitEscaped d (crlf source) =
      (crlf (splitEscaped d source).1, crlf (splitEscaped d source).2) := by
  obtain ⟨behind, rfl⟩ := hs
  have hopening := Text.crlf_eq_self d.isInline_opening.newline
  have hclosing := Text.crlf_eq_self d.isInline_closing.newline
  rw [splitEscaped, splitEscaped, List.drop_left, d.crlf_opening_append, List.drop_left,
    Text.splitAtFirst_crlf d.isInline_closing d.closing_ne_nil]
  cases hsplit : Text.splitAtFirst d.closing behind with
  | none => rw [Option.map_none, ← d.crlf_opening_append]; rfl
  | some cut =>
    obtain ⟨body, found⟩ := cut
    obtain ⟨after, rfl⟩ := Text.prefix_of_splitAtFirst hsplit
    simp [hopening, hclosing]

/-! ## All tokens of a source -/

/-- A token has the same place in a source with other line breaks, a tag is the same tag, and a text
the same text with other line breaks. -/
inductive Token.CrlfOf : Token → Token → Prop
  /-- A text, which had no carriage return. -/
  | text {raw : Text} (c c' : Cursor) (hraw : '\r' ∉ raw) :
      CrlfOf (.text raw c) (.text (crlf raw) c')
  /-- A tag. -/
  | tag {tag : Tag} {c' : Cursor} (hstart : tag.start.position = c'.position) :
      CrlfOf (.tag tag) (.tag { tag with start := c' })

theorem Token.CrlfOf.ofRun {run : Text} (h : '\r' ∉ run) (c c' : Cursor)
    {tokens tokens' : List Token} (hrest : List.Forall₂ CrlfOf tokens tokens') :
    List.Forall₂ CrlfOf (ofRun run c ++ tokens) (ofRun (crlf run) c' ++ tokens') := by
  by_cases hrun : run = []
  · subst hrun
    exact hrest
  · have hrun' : crlf run ≠ [] := mt Text.crlf_eq_nil_iff.1 hrun
    simp only [Token.ofRun, List.isEmpty_iff, hrun, hrun', if_false, List.singleton_append]
    exact .cons (.text c c' h) hrest

/-- **A source with other line breaks has the same tokens** up to line breaks in the texts, as long
as no line break stands in a tag. -/
theorem Scans.crlf {d : Delimiters} {c e : Cursor} {source : Text} {tokens : List Token}
    (h : Scans d c source tokens e) (hsource : '\r' ∉ source)
    (htags : ∀ tag, .tag tag ∈ tokens → '\n' ∉ tag.raw) {c' : Cursor}
    (hc : c.position = c'.position) :
    ∃ tokens' e', scanFrom d c' (Text.crlf source) = ⟨tokens', .ok e'⟩ ∧
      List.Forall₂ Token.CrlfOf tokens tokens' := by
  induction h generalizing c' with
  | finished => exact ⟨[], c', scanFrom_nil _ _, .nil⟩
  | @plain d c source hne hsplit =>
    have hsplit' : Text.splitAtFirst d.opening (Text.crlf source) = none := by
      rw [Text.splitAtFirst_crlf d.isInline_opening d.opening_ne_nil, hsplit]
      rfl
    exact ⟨_, _, scanFrom_text_end (mt Text.crlf_eq_nil_iff.1 hne) hsplit',
      .cons (.text c c' hsource) .nil⟩
  | @escaped d c e source run found tokens hsplit hrest ih =>
    have hopening := Text.prefix_of_splitAtFirst hsplit
    have hback : Text.crlf (run ++ ['\\']) = Text.crlf run ++ ['\\'] := Text.crlf_append run _
    have hsplit' := Delimiters.splitAtFirst_crlf hsplit
    rw [hback] at hsplit'
    rw [← Text.splitAtFirst_append hsplit, ← append_splitEscaped hopening] at hsource
    simp only [List.mem_append, not_or] at hsource
    obtain ⟨⟨hrun, -⟩, hescaped, hbehind⟩ := hsource
    have hhere := Cursor.position_advance_crlf hc (run ++ ['\\'])
    rw [hback] at hhere
    obtain ⟨tokens', e', hscan, htokens⟩ := ih hbehind
      (fun tag htag => htags tag (List.mem_append_right _ (List.mem_cons_of_mem _ htag)))
      (Cursor.position_advance_crlf hhere (splitEscaped d found).1)
    -- an escaped tag is text, and may hold line breaks
    have hverbatim := Token.CrlfOf.text (c.advance (run ++ ['\\']))
      (c'.advance (Text.crlf run ++ ['\\'])) hescaped
    refine ⟨_, e', ?_, Token.CrlfOf.ofRun hrun c c' (.cons hverbatim htokens)⟩
    rw [scanFrom_of_escaped hsplit', splitEscaped_crlf hopening, hscan, Scan.prepend,
      List.append_assoc]
    rfl
  | @tag d c e source run found behind tag tokens hsplit hback hread hrest ih =>
    have hopening := Text.prefix_of_splitAtFirst hsplit
    have hback' : (Text.crlf run).getLast? ≠ some '\\' := by rwa [Text.getLast?_crlf]
    have hraw := htags tag (List.mem_append_right _ List.mem_cons_self)
    rw [← Text.splitAtFirst_append hsplit, Tag.append_of_read hopening hread] at hsource
    simp only [List.mem_append, not_or] at hsource
    obtain ⟨hrun, -, hbehind⟩ := hsource
    have hhere := Cursor.position_advance_crlf hc run
    have hstart : tag.start.position = (c'.advance (Text.crlf run)).position := by
      rw [(Tag.exists_inside_of_read hread).1, hhere]
    have hafter := Cursor.position_advance_crlf hhere tag.raw
    rw [Text.crlf_eq_self hraw] at hafter
    obtain ⟨tokens', e', hscan, htokens⟩ := ih hbehind
      (fun tag htag => htags tag (List.mem_append_right _ (List.mem_cons_of_mem _ htag))) hafter
    refine ⟨_, e', ?_, Token.CrlfOf.ofRun hrun c c' (.cons (.tag hstart) htokens)⟩
    rw [scanFrom_of_read (Delimiters.splitAtFirst_crlf hsplit) hback'
      (Tag.read_crlf hopening hread hraw _)]
    have hnext : ({ tag with start := c'.advance (Text.crlf run) } : Tag).delimitersAfter d =
        tag.delimitersAfter d := rfl
    rw [hnext, hscan, Scan.prepend, List.append_assoc]
    rfl

end Stencil
