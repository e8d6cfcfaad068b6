import Stencil.Proofs.Text.Edge
import Stencil.Proofs.Token.Scanned

/-!
# Which tags stand alone on their line

`Token.standaloneIndent?` decides from the tokens next to a tag whether the tag has its line to
itself.  The meaning of that is a matter of the source, though: nothing but spaces and tabs may
stand between the tag and both ends of its line (`Tag.StandsAlone`).  The two agree, and the reason
is an invariant of the scan.

* Wherever the scanner takes a step, it stands at the beginning of the source or right behind a
  closing delimiter (`Token.AtSeam`).  A delimiter holds no blank, so a run of spaces that has a
  token before it never starts a line.
* What the scanner leaves is empty, or its first run of text is followed by an opening delimiter or
  by the backslash of an escaped tag (`endsLine_of_scans`).  So a run of spaces that has a token
  behind it never ends a line.

`Token.AllLocated` records for every tag of a template that its neighbours tell what the source
says.
-/

set_option autoImplicit false

namespace Stencil

/-- **A tag stands alone** if it is of a kind that may, and if in the source nothing but spaces and
tabs stands between it and both ends of its line. -/
structure Tag.StandsAlone (source : Text) (tag : Tag) : Prop where
  /-- The tag is of a kind that takes its line with it. -/
  ownsLine : tag.kind.ownsLine = true
  /-- Nothing but spaces and tabs stands before it on its line. -/
  startsLine : ∃ indent, Text.EndsInIndent (source.take tag.start.offset) indent
  /-- Nothing but spaces and tabs stands behind it on its line. -/
  endsLine : Text.StartsWithLineEnd (source.drop (tag.start.offset + tag.raw.length))

theorem Tag.standsAlone_iff {source : Text} {tag : Tag} :
    tag.StandsAlone source ↔
      (tag.kind.ownsLine && Text.isLineEnd (source.drop (tag.start.offset + tag.raw.length)) &&
        (Text.indentAtEnd? (source.take tag.start.offset)).isSome) = true := by
  simp only [Bool.and_eq_true, Text.isLineEnd_iff, Option.isSome_iff_exists,
    Text.indentAtEnd?_eq_some_iff]
  exact ⟨fun h => ⟨⟨h.ownsLine, h.endsLine⟩, h.startsLine⟩, fun h => ⟨h.1.1, h.2, h.1.2⟩⟩

instance (source : Text) (tag : Tag) : Decidable (tag.StandsAlone source) :=
  decidable_of_iff _ Tag.standsAlone_iff.symm

namespace Token

/-! ## Before a tag -/

/-- Where the scanner takes a step: at the beginning of the source, or behind tokens of which the
last one ends in a character that is no blank. -/
inductive AtSeam : (before : List Token) → (consumed : Text) → Prop
  /-- Nothing has been read. -/
  | start : AtSeam [] []
  /-- What has been read ends in a character that is no blank. -/
  | behind {before : List Token} {consumed : Text} {c : Char} (hne : before ≠ [])
      (hline : lineIndent? before = none) (hc : isBlank c = false) :
      AtSeam before (consumed ++ [c])

/-- What a text tells about the indentation behind it.  Spaces and tabs alone tell something only
at the beginning of the source. -/
theorem lineIndent?_text (raw : Text) (start : Cursor) (before : List Token) :
    lineIndent? (.text raw start :: before) =
      if Text.dropEndWhile isIndentChar raw = [] ∧ before ≠ [] then none
      else Text.indentAtEnd? raw := by
  rw [lineIndent?, Text.indentAtEnd?]
  by_cases hall : Text.dropEndWhile isIndentChar raw = []
  · cases before <;> simp [hall]
  · have hlast := List.getLast?_eq_some_getLast hall
    have hmixed : ¬(Text.dropEndWhile isIndentChar raw = [] ∧ before ≠ []) := fun h => hall h.1
    rw [if_neg hmixed, hlast]
    split <;> simp_all

/-- Behind a seam and a run of text, the tokens tell the indentation of the source. -/
theorem lineIndent?_ofRun {before : List Token} {consumed : Text} (h : AtSeam before consumed)
    (run : Text) (start : Cursor) :
    lineIndent? ((ofRun run start).reverse ++ before) = Text.indentAtEnd? (consumed ++ run) := by
  by_cases hrun : run = []
  · subst hrun
    cases h with
    | start => rfl
    | behind hne hline hc =>
      rw [List.append_nil, Text.indentAtEnd?_append_singleton hc]
      exact hline
  · have htoken : ofRun run start = [.text run start] := by simp [ofRun, hrun]
    rw [htoken, List.reverse_singleton, List.singleton_append, lineIndent?_text]
    by_cases hall : Text.dropEndWhile isIndentChar run = []
    · cases h with
      | start => simp
      | behind hne hline hc =>
        rw [if_pos ⟨hall, hne⟩, Text.indentAtEnd?_append_of_all hall,
          Text.indentAtEnd?_append_singleton hc, Option.map_none]
    · rw [if_neg fun h => hall h.1, Text.indentAtEnd?_append_of_ne_nil hall]

/-- Behind a tag is a seam. -/
theorem atSeam_tag {d : Delimiters} {start : Cursor} {source rest : Text} {tag : Tag}
    (h : Tag.read d start source = .ok (tag, rest)) (before : List Token) (consumed : Text) :
    AtSeam (.tag tag :: before) (consumed ++ tag.raw) := by
  obtain ⟨-, -, inside, hraw⟩ := Tag.exists_raw_of_read h
  obtain ⟨front, c, hclosing, hc⟩ := d.exists_closing
  rw [hraw, hclosing, ← List.append_assoc, ← List.append_assoc]
  exact .behind (List.cons_ne_nil _ _) rfl hc

/-- Behind an escaped tag is a seam, unless it reaches to the end of the source. -/
theorem atSeam_escaped {d : Delimiters} {source : Text} (h : (splitEscaped d source).2 ≠ [])
    (start : Cursor) (before : List Token) (consumed : Text) :
    AtSeam (.text (splitEscaped d source).1 start :: before)
      (consumed ++ (splitEscaped d source).1) := by
  obtain ⟨inside, hraw⟩ := exists_splitEscaped_closing h
  obtain ⟨front, c, hclosing, hc⟩ := d.exists_closing
  rw [hraw, hclosing, ← List.append_assoc, ← List.append_assoc]
  refine .behind (List.cons_ne_nil _ _) ?_ hc
  have hdrop : Text.dropEndWhile isIndentChar (inside ++ front ++ [c]) = inside ++ front ++ [c] :=
    List.rdropWhile_concat_neg _ _ _ (by rw [Text.isIndentChar_eq_false hc]; decide)
  rw [lineIndent?_text, if_neg (by rw [hdrop]; simp), Text.indentAtEnd?_append_singleton hc]

/-! ## Behind a tag -/

/-- Where a text stops being spaces and tabs, what follows decides whether the line ends there. -/
theorem isLineEnd_cons {c : Char} (hc : isBlank c = false) (found : Text) :
    Text.isLineEnd (c :: found) = false := by
  rw [Text.isLineEnd, List.dropWhile_cons_of_neg (by rw [Text.isIndentChar_eq_false hc]; decide)]
  split
  · next h => exact absurd h (by simp)
  · next h =>
    obtain ⟨rfl, -⟩ := List.cons.inj h
    exact absurd hc (by decide)
  · next h =>
    obtain ⟨rfl, -⟩ := List.cons.inj h
    exact absurd hc (by decide)
  · rfl

/-- Behind a tag stands a run of text and then an opening delimiter or a backslash.  The tokens
tell whether the source goes on with the end of a line. -/
theorem endsLine_ofRun {token : Token} {later : List Token} {c : Char} {found : Text}
    (hlater : endsLine (token :: later) = false) (hc : isBlank c = false) (run : Text)
    (start : Cursor) :
    endsLine (ofRun run start ++ token :: later) = Text.isLineEnd (run ++ c :: found) := by
  by_cases hrun : run = []
  · subst hrun
    rw [List.nil_append, isLineEnd_cons hc]
    exact hlater
  · have htoken : ofRun run start = [.text run start] := by simp [ofRun, hrun]
    rw [htoken, List.singleton_append, endsLine]
    cases hrest : run.dropWhile isIndentChar with
    | nil =>
      have hall := List.dropWhile_eq_nil_iff.1 hrest
      have hsame : Text.isLineEnd (run ++ c :: found) = Text.isLineEnd (c :: found) := by
        rw [Text.isLineEnd, Text.isLineEnd, List.dropWhile_append_of_pos hall]
      rw [hsame, isLineEnd_cons hc]
      rfl
    | cons a rest =>
      rw [Text.isLineEnd, List.dropWhile_append, hrest]
      have hne : c ≠ '\n' := by
        rintro rfl
        exact absurd hc (by decide)
      rcases eq_or_ne a '\n' with rfl | ha
      · rfl
      rcases eq_or_ne a '\r' with rfl | ha'
      · cases rest with
        | nil => simp [hne]
        | cons b rest =>
          rcases eq_or_ne b '\n' with rfl | hb
          · rfl
          · simp [hb]
      · simp [ha, ha']

/-- A text that goes on behind its first character, which is no blank, ends no line. -/
theorem endsLine_text_cons {c : Char} (hc : isBlank c = false) (rest : Text) (start : Cursor)
    (later : List Token) : endsLine (.text (c :: rest) start :: later) = false := by
  have h := isLineEnd_cons hc rest
  rw [Text.isLineEnd] at h
  rw [endsLine]
  rw [List.dropWhile_cons_of_neg (by rw [Text.isIndentChar_eq_false hc]; decide)] at h ⊢
  split <;> simp_all

/-- What the scanner makes of a source tells whether the source starts with the end of a line. -/
theorem endsLine_of_scans {d : Delimiters} {c e : Cursor} {source : Text} {tokens : List Token}
    (h : Scans d c source tokens e) : endsLine tokens = Text.isLineEnd source := by
  cases h with
  | finished => rfl
  | plain hne hsplit =>
    rw [endsLine, Text.isLineEnd]
    cases source.dropWhile isIndentChar <;> rfl
  | @escaped _ _ _ _ run found tokens hsplit hrest =>
    obtain ⟨a, behind, hopening, ha⟩ := d.exists_opening
    obtain ⟨inside, hraw⟩ := exists_splitEscaped (Text.prefix_of_splitAtFirst hsplit)
    have hsource := Text.splitAtFirst_append hsplit
    rw [List.append_assoc, List.singleton_append] at hsource
    rw [← hsource]
    refine endsLine_ofRun ?_ (by decide) run c
    rw [hraw, hopening, List.cons_append]
    exact endsLine_text_cons ha _ _ _
  | @tag _ _ _ _ run found _ _ _ hsplit hrun hread hrest =>
    obtain ⟨a, behind, hopening, ha⟩ := d.exists_opening
    obtain ⟨inside, hfound⟩ := Text.prefix_of_splitAtFirst hsplit
    rw [← Text.splitAtFirst_append hsplit, ← hfound, hopening, List.cons_append]
    exact endsLine_ofRun rfl ha run c

/-! ## Every tag of a template -/

/-- A token is where its cursor says, and if it is a tag its neighbours tell what stands around it
on its line. -/
structure IsLocated (source : Text) (before : List Token) (token : Token) (after : List Token) :
    Prop where
  /-- The token is a stretch of the source. -/
  raw_isPrefix : token.raw <+: source.drop token.start.offset
  /-- The tokens before a tag tell the indentation in the source. -/
  lineIndent? : ∀ tag, token = .tag tag →
    lineIndent? before = Text.indentAtEnd? (source.take tag.start.offset)
  /-- The tokens behind a tag tell whether the source goes on with the end of a line. -/
  endsLine : ∀ tag, token = .tag tag →
    endsLine after = Text.isLineEnd (source.drop (tag.start.offset + tag.raw.length))

/-- All tokens of a list are located, the ones in front of the list given with the nearest first. -/
def AllLocated (source : Text) : (before tokens : List Token) → Prop
  | _, [] => True
  | before, token :: after =>
    token.IsLocated source before after ∧ AllLocated source (token :: before) after

theorem isLocated_text {source consumed raw behind : Text} {start : Cursor}
    (hstart : start.offset = consumed.length) (hsource : source = consumed ++ (raw ++ behind))
    (before after : List Token) : (Token.text raw start).IsLocated source before after := by
  refine ⟨?_, by simp, by simp⟩
  rw [hsource, Token.start, hstart, List.drop_left]
  exact List.prefix_append raw behind

theorem isLocated_tag {source consumed behind : Text} {tag : Tag} {before after : List Token}
    (hstart : tag.start.offset = consumed.length)
    (hsource : source = consumed ++ (tag.raw ++ behind))
    (hbefore : Token.lineIndent? before = Text.indentAtEnd? consumed)
    (hafter : Token.endsLine after = Text.isLineEnd behind) :
    (Token.tag tag).IsLocated source before after := by
  refine ⟨?_, ?_, ?_⟩
  · rw [hsource, Token.start, hstart, List.drop_left]
    exact List.prefix_append tag.raw behind
  · intro t ht
    rw [← Token.tag.inj ht, hbefore, hsource, hstart, List.take_left]
  · intro t ht
    rw [← Token.tag.inj ht, hafter, hsource, hstart, ← List.drop_drop, List.drop_left,
      List.drop_left]

theorem allLocated_ofRun {source consumed run behind : Text} {c : Cursor}
    {before later : List Token} (hc : c.offset = consumed.length)
    (hsource : source = consumed ++ (run ++ behind))
    (h : AllLocated source ((ofRun run c).reverse ++ before) later) :
    AllLocated source before (ofRun run c ++ later) := by
  by_cases hrun : run = []
  · subst hrun
    exact h
  · have htoken : ofRun run c = [.text run c] := by simp [ofRun, hrun]
    rw [htoken] at h ⊢
    exact ⟨isLocated_text hc hsource _ _, h⟩

/-- **The tokens of a scan are located.**  `consumed` is what stands in front of the part of the
source that is scanned, and `before` the tokens it has given rise to. -/
theorem allLocated_of_scans {d : Delimiters} {c e : Cursor} {rest : Text} {tokens : List Token}
    (h : Scans d c rest tokens e) {source consumed : Text} {before : List Token}
    (hsource : source = consumed ++ rest) (hc : c.offset = consumed.length)
    (hseam : rest ≠ [] → AtSeam before consumed) : AllLocated source before tokens := by
  induction h generalizing before consumed with
  | finished => trivial
  | @plain d c rest hne hsplit =>
    have hsource' : source = consumed ++ (rest ++ []) := by rw [hsource, List.append_nil]
    exact ⟨isLocated_text hc hsource' _ _, trivial⟩
  | @escaped d c e rest run found tokens hsplit hrest ih =>
    have hrun := Text.splitAtFirst_append hsplit
    have hfound := append_splitEscaped (Text.prefix_of_splitAtFirst hsplit)
    have hhere : (c.advance (run ++ ['\\'])).offset = (consumed ++ run ++ ['\\']).length := by
      simp [hc, Nat.add_assoc]
    have hsource' : source = consumed ++ run ++ ['\\'] ++
        ((splitEscaped d found).1 ++ (splitEscaped d found).2) := by
      rw [hsource, ← hrun, hfound]
      simp
    have hrest : source = consumed ++ (run ++ '\\' :: found) := by
      rw [hsource, ← hrun]
      simp
    refine allLocated_ofRun hc hrest ⟨isLocated_text hhere hsource' _ _, ?_⟩
    refine @ih (consumed ++ run ++ ['\\'] ++ (splitEscaped d found).1) _ ?_ ?_
      fun hne => atSeam_escaped hne _ _ _
    · rw [hsource']
      simp
    · rw [Cursor.offset_advance, hhere, ← List.length_append]
  | @tag d c e rest run found behind tag tokens hsplit hback hread hrest ih =>
    have hrun := Text.splitAtFirst_append hsplit
    have hfound := Tag.append_of_read (Text.prefix_of_splitAtFirst hsplit) hread
    have hhere : (c.advance run).offset = (consumed ++ run).length := by simp [hc]
    have hsource' : source = consumed ++ run ++ (tag.raw ++ behind) := by
      rw [hsource, ← hrun, hfound, List.append_assoc]
    have hne : rest ≠ [] := by
      rintro rfl
      exact absurd hsplit (by simp [Text.splitAtFirst, d.opening_ne_nil])
    refine allLocated_ofRun hc (by rw [hsource, ← hrun]) ?_
    obtain ⟨hstart, -, -⟩ := Tag.exists_raw_of_read hread
    refine ⟨isLocated_tag (by rw [hstart, hhere]) hsource' ?_ (endsLine_of_scans hrest), ?_⟩
    · exact lineIndent?_ofRun (hseam hne) run c
    · refine @ih (consumed ++ run ++ tag.raw) _ ?_ ?_ fun _ => atSeam_tag hread _ _
      · rw [hsource']
        simp
      · rw [Cursor.offset_advance, hhere, ← List.length_append]

end Token

end Stencil
