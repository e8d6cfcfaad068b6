import Mathlib.Data.List.Infix
import Stencil.Proofs.Except
import Stencil.Proofs.Token.Scanned

/-!
# The tokens of a template cover its source

A scan leaves nothing out but the backslashes in front of escaped tags.  `Token.Cover` says so of a
list of tokens, place by place: each token is a stretch of the source that begins where the one
before it ends (`Token.IsSlice`), except that an escaped tag begins one character later, behind its
backslash (`Token.GoesOn`).  The delimiters that a token is judged by are those in force before it,
so the predicate hands them on from token to token, and with them the place that has been reached.

* `Cursor.isAt_advance` — the line and the column of a cursor are those of the place that it has
  been moved to.
* `Token.cover_of_scans` — the run lemma: whatever a scan has behind it, it covers what it has left.
* `Token.cover_scan` — a template that can be scanned is covered from its beginning to its end.
-/

set_option autoImplicit false

namespace Stencil

/-! ## What stands before a first occurrence -/

/-- A text in which a needle is not found does not hold it. -/
theorem Text.not_infix_of_splitAtFirst_none {needle t : Text}
    (h : Text.splitAtFirst needle t = none) : ¬needle <:+: t := by
  induction t with
  | nil =>
    rw [Text.splitAtFirst] at h
    split at h
    · exact absurd h (by simp)
    · next hne => rwa [List.infix_nil]
  | cons c t ih =>
    rw [Text.splitAtFirst] at h
    split at h
    · exact absurd h (by simp)
    · next hhere =>
      rw [List.infix_cons_iff, not_or]
      exact ⟨hhere, ih (Option.map_eq_none_iff.1 h)⟩

/-- The text before the first occurrence of a needle does not hold the needle. -/
theorem Text.not_infix_of_splitAtFirst {needle t before found : Text} (hne : needle ≠ [])
    (h : Text.splitAtFirst needle t = some (before, found)) : ¬needle <:+: before := by
  induction t generalizing before with
  | nil =>
    rw [Text.splitAtFirst, if_neg hne] at h
    exact absurd h (by simp)
  | cons c t ih =>
    rw [Text.splitAtFirst] at h
    split at h
    · obtain ⟨rfl, -⟩ := Prod.mk.inj (Option.some.inj h)
      rwa [List.infix_nil]
    · next hhere =>
      obtain ⟨⟨b, f⟩, hrest, heq⟩ := Option.map_eq_some_iff.1 h
      obtain ⟨rfl, rfl⟩ := Prod.mk.inj heq
      rw [List.infix_cons_iff, not_or]
      refine ⟨fun hstart => hhere ?_, ih hrest⟩
      rw [← Text.splitAtFirst_append hrest]
      exact hstart.trans (List.prefix_append (c :: b) f)

/-! ## Cursors in a source -/

namespace Cursor

/-- The cursor stands in a source where its offset says: its line is one more than the number of
line feeds before that place, and its column one more than the number of characters behind the last
of them. -/
structure IsAt (source : Text) (c : Cursor) : Prop where
  /-- The place is in the source. -/
  offset_le : c.offset ≤ source.length
  /-- The line counts the line feeds before it. -/
  line_eq : c.line = (source.take c.offset).count '\n' + 1
  /-- The column counts what stands before it on its line. -/
  column_eq : c.column =
    (Text.takeEndWhile (fun a => a ≠ '\n') (source.take c.offset)).length + 1

/-- The column starts anew behind every line feed. -/
theorem column_advance_start (t : Text) :
    (start.advance t).column = (Text.takeEndWhile (fun a => a ≠ '\n') t).length + 1 := by
  induction t using List.reverseRecOn with
  | nil => rfl
  | append_singleton t a ih =>
    have hstep : start.advance (t ++ [a]) = (start.advance t).step a := by
      rw [advance_append]
      rfl
    rw [hstep, step, Text.takeEndWhile, List.reverse_append, List.reverse_singleton,
      List.singleton_append]
    by_cases ha : a = '\n'
    · rw [if_pos ha, List.takeWhile_cons_of_neg (by simpa using ha)]
      rfl
    · rw [if_neg ha, List.takeWhile_cons_of_pos (by simpa using ha), List.reverse_cons,
        List.length_append, List.length_singleton]
      exact congrArg (· + 1) ih

/-- **A cursor that is moved over the beginning of a source stands at the end of it.** -/
theorem isAt_advance (consumed rest : Text) :
    (start.advance consumed).IsAt (consumed ++ rest) := by
  have hoffset : (start.advance consumed).offset = consumed.length := by
    rw [offset_advance]
    exact Nat.zero_add _
  have htake : (consumed ++ rest).take (start.advance consumed).offset = consumed := by
    rw [hoffset, List.take_left]
  refine ⟨?_, ?_, ?_⟩
  · rw [hoffset, List.length_append]
    exact Nat.le_add_right _ _
  · rw [htake, line_advance, Nat.add_comm]
    rfl
  · rw [htake]
    exact column_advance_start consumed

end Cursor

/-! ## What covers a source -/

namespace Token

/-- Where a token ends in the source. -/
def stop (token : Token) : Nat :=
  token.start.offset + token.raw.length

/-- The delimiters in force behind a token. -/
def delimitersAfter (d : Delimiters) : Token → Delimiters
  | .text _ _ => d
  | .tag t => t.delimitersAfter d

/-- A token is a stretch of the source that is not empty, and its cursor says where. -/
structure IsSlice (source : Text) (token : Token) : Prop where
  /-- The stretch is not empty. -/
  raw_ne_nil : token.raw ≠ []
  /-- It stands in the source from the start of the token to its end. -/
  raw_eq : token.raw = (source.take token.stop).drop token.start.offset
  /-- The start of the token has the line and the column of its offset. -/
  start_isAt : token.start.IsAt source

/-- How a token goes on from a place in the source where some delimiters are in force. -/
inductive GoesOn (source : Text) (d : Delimiters) (place : Nat) : Token → Prop
  /-- A tag begins at that place and stands between the delimiters. -/
  | tag {tag : Tag} (hstart : tag.start.offset = place)
      (hraw : ∃ inside, tag.raw = d.opening ++ (inside ++ d.closing)) :
      GoesOn source d place (.tag tag)
  /-- A run of text begins at that place and holds no opening delimiter. -/
  | run {raw : Text} {start : Cursor} (hstart : start.offset = place)
      (hraw : ¬d.opening <:+: raw) : GoesOn source d place (.text raw start)
  /-- The text of an escaped tag begins with an opening delimiter, behind a backslash. -/
  | escaped {raw : Text} {start : Cursor} (hbackslash : source[place]? = some '\\')
      (hstart : start.offset = place + 1) (hraw : d.opening <+: raw) :
      GoesOn source d place (.text raw start)

/-- **Some tokens cover a source** from a place where some delimiters are in force: every token is a
stretch of the source and goes on where the one before it ends, and the last one ends where the
source does. -/
def Cover (source : Text) (d : Delimiters) (place : Nat) : List Token → Prop
  | [] => place = source.length
  | token :: tokens => token.IsSlice source ∧ token.GoesOn source d place ∧
      Cover source (token.delimitersAfter d) token.stop tokens

/-! ## Scans cover what they read -/

variable {source consumed behind : Text} {d : Delimiters}

theorem offset_advance_start (t : Text) : (Cursor.start.advance t).offset = t.length := by
  rw [Cursor.offset_advance]
  exact Nat.zero_add _

/-- A token that is read where something has been consumed is a stretch of the source, and tokens
that cover the rest of the source may follow it. -/
theorem cover_cons {token : Token} {tokens : List Token} {place : Nat} (hne : token.raw ≠ [])
    (hstart : token.start = Cursor.start.advance consumed)
    (hsource : source = consumed ++ (token.raw ++ behind)) (hgoes : token.GoesOn source d place)
    (h : Cover source (token.delimitersAfter d) (consumed ++ token.raw).length tokens) :
    Cover source d place (token :: tokens) := by
  have hoffset : token.start.offset = consumed.length := by rw [hstart, offset_advance_start]
  have hstop : token.stop = (consumed ++ token.raw).length := by
    rw [stop, hoffset, List.length_append]
  have htake : source.take token.stop = consumed ++ token.raw := by
    rw [hstop, hsource, ← List.append_assoc, List.take_left]
  refine ⟨⟨hne, ?_, ?_⟩, hgoes, hstop ▸ h⟩
  · rw [htake, hoffset, List.drop_left]
  · rw [hstart, hsource]
    exact Cursor.isAt_advance _ _

/-- A run of text in front of tokens that cover the rest of the source is covered too. -/
theorem cover_ofRun {run : Text} {tokens : List Token}
    (hsource : source = consumed ++ (run ++ behind)) (hrun : ¬d.opening <:+: run)
    (h : Cover source d (consumed ++ run).length tokens) :
    Cover source d consumed.length (ofRun run (Cursor.start.advance consumed) ++ tokens) := by
  by_cases hne : run = []
  · subst hne
    rwa [List.append_nil] at h
  · have htoken : ofRun run (Cursor.start.advance consumed) =
        [.text run (Cursor.start.advance consumed)] := by
      simp [ofRun, hne]
    rw [htoken]
    exact cover_cons hne rfl hsource (.run (offset_advance_start consumed) hrun) h

/-- **A scan covers what it has left of a source**, whatever it has read before. -/
theorem cover_of_scans {c e : Cursor} {rest : Text} {tokens : List Token}
    (h : Scans d c rest tokens e) (hsource : source = consumed ++ rest)
    (hc : c = Cursor.start.advance consumed) :
    Cover source d consumed.length tokens ∧ e = Cursor.start.advance source := by
  induction h generalizing consumed with
  | finished d c =>
    rw [List.append_nil] at hsource
    exact ⟨congrArg List.length hsource.symm, by rw [hc, hsource]⟩
  | @plain d c rest hne hsplit =>
    have hrun := Text.not_infix_of_splitAtFirst_none hsplit
    have hsource' : source = consumed ++ (rest ++ []) := by rw [hsource, List.append_nil]
    have htoken : ofRun rest c ++ [] = [.text rest c] := by simp [ofRun, hne]
    refine ⟨?_, by rw [hc, ← Cursor.advance_append, hsource]⟩
    rw [← htoken, hc]
    exact cover_ofRun hsource' hrun (congrArg List.length hsource.symm)
  | @escaped d c e rest run found tokens hsplit hrest ih =>
    have hopening := Text.prefix_of_splitAtFirst hsplit
    obtain ⟨inside, hraw⟩ := exists_splitEscaped hopening
    have hne : (splitEscaped d found).1 ≠ [] := by
      rw [hraw]
      exact List.append_ne_nil_of_left_ne_nil d.opening_ne_nil _
    have hback : source = consumed ++ (run ++ '\\' :: found) := by
      rw [hsource, ← Text.splitAtFirst_append hsplit, List.append_assoc]
      rfl
    have hfound : source = (consumed ++ (run ++ ['\\'])) ++
        ((splitEscaped d found).1 ++ (splitEscaped d found).2) := by
      rw [append_splitEscaped hopening, hback]
      simp
    have hhere : c.advance (run ++ ['\\']) =
        Cursor.start.advance (consumed ++ (run ++ ['\\'])) := by
      rw [hc, ← Cursor.advance_append]
    have hrun : ¬d.opening <:+: run := fun hinside =>
      Text.not_infix_of_splitAtFirst d.opening_ne_nil hsplit
        (hinside.trans (List.prefix_append run ['\\']).isInfix)
    obtain ⟨hcover, hend⟩ := @ih (consumed ++ (run ++ ['\\']) ++ (splitEscaped d found).1)
      (by rw [hfound, ← List.append_assoc])
      (by rw [hhere, ← Cursor.advance_append])
    refine ⟨?_, hend⟩
    rw [hc]
    refine cover_ofRun hback hrun (cover_cons hne (hhere ▸ hc ▸ rfl) hfound ?_ hcover)
    refine .escaped ?_ ?_ ⟨inside, hraw.symm⟩
    · rw [hback, ← List.append_assoc, List.getElem?_append_right (Nat.le_refl _), Nat.sub_self]
      rfl
    · rw [← hc, hhere, offset_advance_start]
      simp [Nat.add_assoc]
  | @tag d c e rest run found behind tag tokens hsplit hback hread hrest ih =>
    have hopening := Text.prefix_of_splitAtFirst hsplit
    obtain ⟨hstart, hraw⟩ := Tag.exists_inside_of_read hread
    have hne : tag.raw ≠ [] := by
      obtain ⟨inside, hraw⟩ := hraw
      rw [hraw]
      exact List.append_ne_nil_of_left_ne_nil d.opening_ne_nil _
    have hfound : source = (consumed ++ run) ++ (tag.raw ++ behind) := by
      rw [hsource, ← Text.splitAtFirst_append hsplit, Tag.append_of_read hopening hread,
        List.append_assoc]
    have hhere : c.advance run = Cursor.start.advance (consumed ++ run) := by
      rw [hc, ← Cursor.advance_append]
    have hrun := Text.not_infix_of_splitAtFirst d.opening_ne_nil hsplit
    obtain ⟨hcover, hend⟩ := @ih (consumed ++ run ++ tag.raw)
      (by rw [hfound, ← List.append_assoc])
      (by rw [hhere, ← Cursor.advance_append])
    refine ⟨?_, hend⟩
    rw [hc]
    refine cover_ofRun (by rw [hfound, List.append_assoc]) hrun
      (cover_cons hne (hstart.trans hhere) hfound ?_ hcover)
    refine .tag ?_ hraw
    rw [hstart, hhere, offset_advance_start]

/-! ## Whole templates -/

/-- **The tokens of a template cover its source.**  If a template can be scanned, its tokens cover
the source from the beginning, under the delimiters that the scan starts with, and the cursor that
closes the scan stands at the end of the source. -/
theorem cover_scan {d : Delimiters} {source : Text} {e : Cursor}
    (h : (scan d source).finish = .ok e) :
    Cover source d 0 (scan d source).tokens ∧ e.offset = source.length ∧ e.IsAt source := by
  have hsource : source = [] ++ source := rfl
  obtain ⟨hcover, rfl⟩ := cover_of_scans (scans_scan h) hsource rfl
  have hend := Cursor.isAt_advance source []
  rw [List.append_nil] at hend
  exact ⟨hcover, offset_advance_start source, hend⟩

/-- Two escaped tags, the second under other delimiters and without an end: two backslashes are left
out of the source, and nothing else is. -/
theorem cover_scan_escaped :
    let d : Delimiters := ⟨['['], [']'], rfl, rfl⟩
    ∃ source e, (scan d source).finish = .ok e ∧
      (scan d source).tokens.map (fun t => (t.start.offset, t.stop)) =
        [(0, 1), (2, 5), (5, 6), (6, 13), (14, 16)] ∧
      Cover source d 0 (scan d source).tokens ∧ e.offset = 16 := by
  intro d
  have hfinish : (scan d "a\\[b]\n[=< >=]\\<c".toList).finish.isOk = true := by decide +kernel
  obtain ⟨e, he⟩ := Except.isOk_iff.1 hfinish
  obtain ⟨hcover, hend, -⟩ := cover_scan he
  exact ⟨_, e, he, by decide +kernel, hcover, hend⟩

end Token

end Stencil
