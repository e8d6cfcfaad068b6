import Stencil.Proofs.Except
import Stencil.Proofs.Node.Standalone
import Stencil.Proofs.Token.Printing
import Stencil.Template

/-!
# Templates that are nothing but a partial tag

A partial tag on a line of its own takes the line with it.  If there is nothing else in a template
than that line, the tree of the template is the tag alone, and what stands before the tag on the
line has become the indentation of the tag (`Node.parse_lonePartial`).
-/

set_option autoImplicit false

namespace Stencil

/-- A template that is nothing but a partial tag on a line of its own. -/
structure LonePartial (d : Delimiters) where
  /-- What stands before the tag. -/
  indent : Text
  /-- The tag. -/
  tag : Tag
  /-- What stands behind the tag. -/
  ending : Text
  /-- What the tag is called with. -/
  call : PartialCall
  /-- Nothing but spaces and tabs stands before the tag. -/
  isIndent : ∀ c ∈ indent, isIndentChar c = true
  /-- The tag is what is read behind them. -/
  read : Tag.read d (Cursor.start.advance indent) (tag.raw ++ ending) = .ok (tag, ending)
  /-- It is a partial tag. -/
  kind : tag.kind = .partialRef
  /-- Its content is the call. -/
  parse : PartialCall.parse tag.start.position tag.content = .ok call
  /-- Nothing but the end of the line stands behind the tag. -/
  endsLine : dropLineEnd ending = []

/-- The source of the template. -/
def LonePartial.source {d : Delimiters} (t : LonePartial d) : Text :=
  t.indent ++ (t.tag.raw ++ t.ending)

variable {d : Delimiters} {indent found ending : Text} {tag : Tag}

/-- What is left of nothing but the end of a line was nothing but the end of a line. -/
theorem dropWhile_isIndentChar_of_dropLineEnd (h : dropLineEnd ending = []) :
    ending.dropWhile isIndentChar = [] ∨ ending.dropWhile isIndentChar = ['\n'] ∨
      ending.dropWhile isIndentChar = ['\r', '\n'] := by
  rw [dropLineEnd] at h
  split at h
  · next heq => exact .inr (.inl (h ▸ heq))
  · next heq => exact .inr (.inr (h ▸ heq))
  · exact .inl h

theorem isBlank_of_dropLineEnd (h : dropLineEnd ending = []) {c : Char} (hc : c ∈ ending) :
    isBlank c = true := by
  rw [← List.takeWhile_append_dropWhile (p := isIndentChar) (l := ending), List.mem_append] at hc
  rcases hc with hc | hc
  · exact Text.isBlank_of_isIndentChar (List.mem_takeWhile_imp hc)
  · rcases dropWhile_isIndentChar_of_dropLineEnd h with hdrop | hdrop | hdrop
    · exact absurd (hdrop ▸ hc) List.not_mem_nil
    · rw [hdrop, List.mem_singleton] at hc
      rw [hc]
      decide
    · rw [hdrop, List.mem_pair] at hc
      rcases hc with rfl | rfl
      · decide
      · decide

/-! ## Scanning blanks -/

/-- No tag begins with a blank. -/
theorem not_opening_prefix_cons {c : Char} (h : isBlank c = true) (t : Text) :
    ¬ d.opening <+: c :: t := by
  obtain ⟨a, rest, hopening, ha⟩ := d.exists_opening
  rw [hopening]
  intro hprefix
  obtain ⟨rfl, -⟩ := List.cons_prefix_cons.1 hprefix
  exact absurd (h.symm.trans ha) (by decide)

/-- The first tag behind some blanks is the one right behind them. -/
theorem splitAtFirst_blanks_append (h : ∀ c ∈ indent, isBlank c = true)
    (hopening : d.opening <+: found) :
    Text.splitAtFirst d.opening (indent ++ found) = some (indent, found) := by
  induction indent with
  | nil => exact splitAtFirst_of_opening hopening
  | cons c indent ih =>
    rw [List.cons_append, Text.splitAtFirst,
      if_neg (not_opening_prefix_cons (h c List.mem_cons_self) _),
      ih fun a ha => h a (List.mem_cons_of_mem c ha)]
    rfl

/-- There is no tag among blanks. -/
theorem splitAtFirst_blanks (h : ∀ c ∈ ending, isBlank c = true) :
    Text.splitAtFirst d.opening ending = none := by
  induction ending with
  | nil => rw [Text.splitAtFirst, if_neg d.opening_ne_nil]
  | cons c ending ih =>
    rw [Text.splitAtFirst, if_neg (not_opening_prefix_cons (h c List.mem_cons_self) _),
      ih fun a ha => h a (List.mem_cons_of_mem c ha)]
    rfl

theorem scanFrom_blanks (h : ∀ c ∈ ending, isBlank c = true) (start : Cursor) :
    scanFrom d start ending = ⟨Token.ofRun ending start, .ok (start.advance ending)⟩ := by
  by_cases hne : ending = []
  · subst hne
    exact scanFrom_nil d start
  · rw [scanFrom_text_end hne (splitAtFirst_blanks h), Token.ofRun, if_neg (by simpa using hne)]

/-- A tag between blanks is scanned as a token between those of the blanks. -/
theorem scan_loneTag (hindent : ∀ c ∈ indent, isBlank c = true)
    (hending : ∀ c ∈ ending, isBlank c = true) (hopening : d.opening <+: found)
    (hread : Tag.read d (Cursor.start.advance indent) found = .ok (tag, ending))
    (hkind : tag.delimitersAfter d = d) :
    let behind := (Cursor.start.advance indent).advance tag.raw
    scan d (indent ++ found) =
      ⟨Token.ofRun indent .start ++ .tag tag :: Token.ofRun ending behind,
        .ok (behind.advance ending)⟩ := by
  intro behind
  have hback : indent.getLast? ≠ some '\\' := by
    intro hlast
    exact absurd (hindent _ (List.mem_of_getLast? hlast)) (by decide)
  have hscan := scanFrom_of_read (splitAtFirst_blanks_append hindent hopening) hback hread
  rw [hkind, scanFrom_blanks hending] at hscan
  rw [scan, hscan, Scan.prepend, List.append_assoc, List.singleton_append]

/-! ## The line of the tag -/

/-- A tag between spaces and tabs and the end of a line stands alone. -/
theorem standaloneIndent?_loneTag (hindent : ∀ c ∈ indent, isIndentChar c = true)
    (hending : dropLineEnd ending = []) (hkind : tag.kind.ownsLine = true) (start here : Cursor) :
    Token.standaloneIndent? (Token.ofRun indent start) tag (Token.ofRun ending here) =
      some indent := by
  have hline : Token.lineIndent? (Token.ofRun indent start) = some indent := by
    have hrun := Token.lineIndent?_ofRun .start indent start
    have hends : Text.EndsInIndent indent indent :=
      ⟨[], rfl, .inl rfl, fun c hc => Text.isIndentChar_iff.1 (hindent c hc)⟩
    rw [List.nil_append, Text.indentAtEnd?_eq_some_iff.2 hends, List.append_nil] at hrun
    rw [← hrun, Token.ofRun]
    split <;> rfl
  have hends : Token.endsLine (Token.ofRun ending here) = true := by
    by_cases hne : ending = []
    · subst hne
      rfl
    · rw [Token.ofRun, if_neg (by simpa using hne), Token.endsLine]
      rcases dropWhile_isIndentChar_of_dropLineEnd hending with hdrop | hdrop | hdrop <;>
        rw [hdrop] <;> rfl
  rw [Token.standaloneIndent?, hkind, hends, hline]
  rfl

/-- Nothing is kept of spaces and tabs in front of a tag that stands alone. -/
theorem trimmed_indent (hindent : ∀ c ∈ indent, isIndentChar c = true) {start : Cursor}
    {later : List Token}
    (h : Token.standaloneIndent? [.text indent start] tag later = some indent) :
    Token.trimmed [] indent start (.tag tag :: later) = [] := by
  have hdrop : Text.dropEndWhile isIndentChar indent = [] := List.rdropWhile_eq_nil_iff.2 hindent
  simp [Token.trimmed, h, hdrop]

/-- Nothing is kept of the end of a line behind a tag that stands alone. -/
theorem trimmed_lineEnd (hending : dropLineEnd ending = []) {here : Cursor} {earlier : List Token}
    (h : Token.standaloneIndent? earlier tag [.text ending here] = some indent) :
    Token.trimmed (.tag tag :: earlier) ending here [] = [] := by
  simp [Token.trimmed, h, hending]

/-- Only the tag is left of a line that a tag stands alone on: the texts around it are empty. -/
theorem arrange_loneTag (hindent : ∀ c ∈ indent, isIndentChar c = true)
    (hending : dropLineEnd ending = []) (hkind : tag.kind.ownsLine = true) (start here : Cursor) :
    Piece.arrange (Token.ofRun indent start ++ .tag tag :: Token.ofRun ending here) =
      (Token.ofRun indent start).map (fun _ => .text []) ++ .tag tag (some indent) ::
        (Token.ofRun ending here).map fun _ => .text [] := by
  have halone := standaloneIndent?_loneTag hindent hending hkind start here
  have hbehind :
      Piece.arrangeFrom (Token.ofRun indent start) (.tag tag :: Token.ofRun ending here) =
      .tag tag (some indent) :: (Token.ofRun ending here).map fun _ => .text [] := by
    rw [Piece.arrangeFrom, halone]
    by_cases hne : ending.isEmpty = true
    · have hnothing : Token.ofRun ending here = [] := if_pos hne
      rw [hnothing]
      rfl
    · have htext : Token.ofRun ending here = [.text ending here] := if_neg hne
      rw [htext] at halone ⊢
      rw [Piece.arrangeFrom, trimmed_lineEnd hending halone]
      rfl
  rw [Piece.arrange]
  by_cases hne : indent.isEmpty = true
  · have hnothing : Token.ofRun indent start = [] := if_pos hne
    rw [hnothing] at hbehind ⊢
    exact hbehind
  · have htext : Token.ofRun indent start = [.text indent start] := if_neg hne
    rw [htext] at halone hbehind ⊢
    rw [List.singleton_append, Piece.arrangeFrom, hbehind]
    exact congrArg (fun t => Piece.text t :: _) (trimmed_indent hindent halone)

/-! ## The tree of the tag -/

/-- Empty texts leave no nodes. -/
theorem TreeBuilder.foldlM_step_of_forall {pieces : List Piece}
    (h : ∀ piece ∈ pieces, piece = .text []) (root : List Node) :
    pieces.foldlM step ⟨root, []⟩ = .ok ⟨root, []⟩ := by
  induction pieces with
  | nil => rfl
  | cons piece pieces ih =>
    rw [List.foldlM_cons, h piece List.mem_cons_self]
    exact ih fun p hp => h p (List.mem_cons_of_mem _ hp)

/-- **A template that is nothing but a partial tag on a line of its own** has a tree of that tag
alone, indented by what stands before the tag on the line. -/
theorem Node.parse_lonePartial (t : LonePartial d) :
    Node.parse d t.source = .ok [.partialTag t.call t.indent t.tag.start.position] := by
  obtain ⟨-, ⟨inside, hraw⟩, -⟩ := Tag.exists_raw_of_read t.read
  have hopening : d.opening <+: t.tag.raw ++ t.ending := ⟨inside ++ t.ending, by simp [hraw]⟩
  have hscan := scan_loneTag (fun c hc => Text.isBlank_of_isIndentChar (t.isIndent c hc))
    (fun c hc => isBlank_of_dropLineEnd t.endsLine hc) hopening t.read
    (by rw [Tag.delimitersAfter, t.kind])
  have harrange := arrange_loneTag t.isIndent t.endsLine (by rw [t.kind]; rfl) .start
    ((Cursor.start.advance t.indent).advance t.tag.raw)
  have hempty : ∀ tokens : List Token,
      ∀ piece ∈ tokens.map fun _ => Piece.text [], piece = .text [] := by
    intro tokens piece hpiece
    obtain ⟨token, -, rfl⟩ := List.mem_map.1 hpiece
    rfl
  have htag : TreeBuilder.step ⟨[], []⟩ (.tag t.tag (some t.indent)) =
      .ok ⟨[.partialTag t.call t.indent t.tag.start.position], []⟩ := by
    rw [TreeBuilder.step, t.kind, t.parse]
    rfl
  have hfold : (Piece.arrange (Token.ofRun t.indent .start ++ .tag t.tag ::
      Token.ofRun t.ending ((Cursor.start.advance t.indent).advance t.tag.raw))).foldlM
        TreeBuilder.step .empty =
      .ok ⟨[.partialTag t.call t.indent t.tag.start.position], []⟩ := by
    rw [harrange, List.foldlM_append, TreeBuilder.empty,
      TreeBuilder.foldlM_step_of_forall (hempty _)]
    show List.foldlM TreeBuilder.step ⟨[], []⟩ (_ :: _) = _
    rw [List.foldlM_cons, htag]
    exact TreeBuilder.foldlM_step_of_forall (hempty _) _
  rw [parse, LonePartial.source, hscan]
  show Node.ofTokens _ = _
  rw [ofTokens, ofPieces, hfold]
  rfl

/-- Such a template can be compiled, with that tree. -/
theorem Template.compile_lonePartial {options : CompileOptions} (t : LonePartial options.delimiters)
    (known : KnownHelpers) (name : Text) :
    ∃ u, (Template.compile known options name t.source).result = .ok u ∧
      u.nodes = [.partialTag t.call t.indent t.tag.start.position] := by
  obtain ⟨e, hfinish, htree⟩ := Except.bind_eq_ok.1 (Node.parse_lonePartial t)
  -- a partial tag is no section, so the survey has nothing to refuse
  have hwalk : Survey.walk known ⟨[], []⟩
      [.partialTag t.call t.indent t.tag.start.position] = .ok _ := Survey.walk_eq _ _ _
  rw [Template.compile, hfinish, htree]
  simp only [Template.ofNodes, hwalk]
  exact ⟨_, rfl, rfl⟩

end Stencil
