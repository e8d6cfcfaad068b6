import Mathlib.Data.List.Infix
import Stencil.Proofs.Text.Edge
import Stencil.Token.Scan

/-!
# Printing a tag and scanning it again

A tag is printed between the default delimiters with a space before the closing one (`Tag.print`).
That space is what makes printing safe: no mark that ends a tag holds a space, so nothing that
stands before the space can become a part of such a mark (`prefix_of_prefix_append_space`), and a
tag ends where it was meant to end as soon as its inside holds no end mark of its own
(`Terminator.find?_append_space`).

* `Tag.read_print`, `Tag.read_printComment`, `Tag.read_printElse` — what is printed as a tag is read
  as that tag, whatever follows.
* `scanFrom_tag`, `scanFrom_text` — a tag, and a text in front of a tag or of the end, are scanned
  as one token, and the scan goes on behind it.
-/

set_option autoImplicit false

namespace Stencil

/-! ## The end of a tag -/

/-- What holds no space does not reach beyond one. -/
theorem prefix_of_prefix_append_space {mark t rest : Text} (hmark : ' ' ∉ mark)
    (h : mark <+: t ++ ' ' :: rest) : mark <+: t := by
  have hcases := List.prefix_or_prefix_of_prefix h (List.prefix_append t (' ' :: rest))
  rcases hcases with hle | ⟨more, rfl⟩
  · exact hle
  · rw [List.prefix_append_right_inj] at h
    cases more with
    | nil => rw [List.append_nil]
    | cons c more =>
      obtain ⟨rfl, -⟩ := List.cons_prefix_cons.1 h
      exact absurd (List.mem_append_right t List.mem_cons_self) hmark

namespace Terminator

variable {e : Terminator}

theorem match?_append_space (hspace : ∀ trim, ' ' ∉ e.source trim) {body : Text}
    (hbody : ∀ trim, ¬e.source trim <:+: body) (t : Text) : e.match? (body ++ ' ' :: t) = none := by
  cases hmatch : e.match? (body ++ ' ' :: t) with
  | none => rfl
  | some found =>
    obtain ⟨trim, rest⟩ := found
    have hstart : e.source trim <+: body ++ ' ' :: t := ⟨rest, (append_of_match? hmatch).symm⟩
    exact absurd (prefix_of_prefix_append_space (hspace trim) hstart).isInfix (hbody trim)

theorem find?_of_match? {t rest : Text} {trim : Bool} (h : e.match? t = some (trim, rest)) :
    e.find? t = some ([], trim, rest) := by
  cases t with
  | nil => rw [find?, h, Option.map_some]
  | cons c t => rw [find?, h]

/-- A tag ends behind the space in front of its end mark if no end mark stands before. -/
theorem find?_append_space (hspace : ∀ trim, ' ' ∉ e.source trim) {body : Text}
    (hbody : ∀ trim, ¬e.source trim <:+: body) {t rest : Text} {trim : Bool}
    (hend : e.match? t = some (trim, rest)) :
    e.find? (body ++ ' ' :: t) = some (body ++ [' '], trim, rest) := by
  induction body with
  | nil =>
    have hnone := match?_append_space hspace hbody t
    rw [List.nil_append] at hnone ⊢
    rw [find?, hnone, find?_of_match? hend]
    rfl
  | cons c body ih =>
    have hnone := match?_append_space hspace hbody t
    have hrest := ih fun trim hinside => hbody trim (List.infix_cons hinside)
    rw [List.cons_append] at hnone ⊢
    rw [find?, hnone, hrest]
    rfl

end Terminator

/-! ## Printed tags -/

namespace Tag

/-- A tag as it is printed, `inside` being its sigil and its content. -/
def print (inside : Text) : Text :=
  Delimiters.braces.opening ++ (inside ++ ' ' :: Delimiters.braces.closing)

/-- A comment as it is printed. -/
def printComment (content : Text) : Text :=
  Delimiters.braces.opening ++ ('!' :: '-' :: '-' :: ' ' :: (content ++
    ' ' :: '-' :: '-' :: Delimiters.braces.closing))

/-- An else tag as it is printed. -/
def printElse : Text :=
  Delimiters.braces.opening ++ ('e' :: 'l' :: 's' :: 'e' :: Delimiters.braces.closing)

/-- What is printed as a tag is read as that tag. -/
theorem read_print {inside content : Text} {kind : TagKind}
    (hfirst : ∃ c t, inside = c :: t ∧ c ∉ ['~', '!', '=', '\x7b'])
    (hclosing : ¬Delimiters.braces.closing <:+: inside)
    (hkind : TagKind.ofPlain (Text.strip inside) = .ok (kind, content)) (start : Cursor)
    (rest : Text) :
    read .braces start (print inside ++ rest) =
      .ok (⟨kind, print inside, content, start, false, false⟩, rest) := by
  have hsource : print inside ++ rest = Delimiters.braces.opening ++
      (inside ++ ' ' :: (Delimiters.braces.closing ++ rest)) := by
    simp only [print, List.append_assoc, List.cons_append]
  have htrim : ∀ t, splitTrim (inside ++ t) = (false, inside ++ t) := by
    obtain ⟨c, u, rfl, hc⟩ := hfirst
    intro t
    rw [splitTrim]
    rintro v hv
    obtain ⟨rfl, -⟩ := List.cons.inj hv
    exact hc (by decide)
  have hform : ∀ t, TagForm.read .braces (inside ++ t) = (.plain, inside ++ t) := by
    obtain ⟨c, u, rfl, hc⟩ := hfirst
    simp only [List.mem_cons, List.not_mem_nil, or_false, not_or] at hc
    intro t
    simp [TagForm.read, hc]
  have hfind : (⟨[], Delimiters.braces.closing⟩ : Terminator).find?
      (inside ++ ' ' :: (Delimiters.braces.closing ++ rest)) =
        some (inside ++ [' '], false, rest) := by
    refine Terminator.find?_append_space (by decide) (fun trim hinside => hclosing ?_) rfl
    cases trim with
    | false => exact hinside
    | true => exact (List.suffix_cons '~' _).isInfix.trans hinside
  rw [read, hsource, List.drop_left]
  simp only [htrim, hform, TagForm.endMark, hfind, TagKind.ofBody, Text.strip_concat_space, hkind,
    List.append_assoc]
  rfl

/-- What is printed as a comment is read as that comment. -/
theorem read_printComment {content : Text} (hstrip : Text.strip content = content)
    (hend : ¬['-', '-', '\x7d', '\x7d'] <:+: content)
    (htrimEnd : ¬['-', '-', '~', '\x7d', '\x7d'] <:+: content) (start : Cursor) (rest : Text) :
    read .braces start (printComment content ++ rest) =
      .ok (⟨.comment, printComment content, content, start, false, false⟩, rest) := by
  have hbody : ∀ trim, ¬Terminator.source ⟨['-', '-'], Delimiters.braces.closing⟩ trim <:+:
      ' ' :: content := by
    intro trim hinside
    rcases List.infix_cons_iff.1 hinside with hstart | hinside
    · cases trim <;> exact absurd (List.cons_prefix_cons.1 hstart).1 (by decide)
    · cases trim with
      | false => exact hend hinside
      | true => exact htrimEnd hinside
  have hfind : (⟨['-', '-'], Delimiters.braces.closing⟩ : Terminator).find? (' ' :: content ++
      ' ' :: ('-' :: '-' :: (Delimiters.braces.closing ++ rest))) =
        some (' ' :: content ++ [' '], false, rest) :=
    Terminator.find?_append_space (by decide) hbody rfl
  have hsource : printComment content ++ rest = Delimiters.braces.opening ++ ('!' :: '-' :: '-' ::
      (' ' :: content ++ ' ' :: ('-' :: '-' :: (Delimiters.braces.closing ++ rest)))) := by
    simp only [printComment, List.append_assoc, List.cons_append]
  rw [read, hsource, List.drop_left]
  have htrim : ∀ t, splitTrim ('!' :: t) = (false, '!' :: t) := fun _ => rfl
  have hform : ∀ t, TagForm.read .braces ('!' :: '-' :: '-' :: t) = (.longComment, t) :=
    fun _ => rfl
  simp only [htrim, hform, TagForm.endMark, hfind, TagKind.ofBody, Text.strip_concat_space,
    Text.strip_space_cons, hstrip, List.append_assoc]
  rfl

/-- What is printed as an else tag is read as an else tag without a call. -/
theorem read_printElse (start : Cursor) (rest : Text) :
    read .braces start (printElse ++ rest) =
      .ok (⟨.otherwise, printElse, [], start, false, false⟩, rest) := by
  rfl

end Tag

/-! ## Sigils -/

namespace TagKind

/-- The sigil of a kind of tags, if it has one. -/
def sigil? : TagKind → Option Char
  | .unescaped => some '&'
  | .block => some '#'
  | .inverted => some '^'
  | .close => some '/'
  | .partialRef => some '>'
  | .escaped | .otherwise | .comment | .delimiters _ => none

/-- A sigil tells the kind of a tag. -/
theorem ofPlain_sigil {kind : TagKind} {c : Char} (h : kind.sigil? = some c) {content : Text}
    (hcontent : content.IsTrim) : ofPlain (c :: ' ' :: content) = .ok (kind, content) := by
  have hstrip : Text.strip (' ' :: content) = content := by
    rw [Text.strip_space_cons, hcontent.strip_eq]
  have hne : content.isEmpty = false := by simpa using hcontent.ne_nil
  cases kind with
  | escaped | otherwise | comment | delimiters next => exact absurd h (by simp [sigil?])
  | unescaped | block | inverted | close | partialRef =>
    obtain rfl := Option.some.inj h
    simp only [ofPlain, hstrip, hne, Bool.false_eq_true, if_false]

/-- A tag whose content begins neither with a sigil nor with the word for an else tag outputs a
value. -/
theorem ofPlain_escaped {content : Text} (hne : content ≠ [])
    (hsigil : ∀ c t, content = c :: t → c ∉ ['#', '^', '/', '>', '&'])
    (helse : ∀ rest, content = 'e' :: 'l' :: 's' :: 'e' :: rest →
      ∃ c t, rest = c :: t ∧ isBlank c = false) :
    ofPlain content = .ok (.escaped, content) := by
  have hempty : content.isEmpty = false := by simpa using hne
  unfold ofPlain
  split
  · exact absurd (hsigil _ _ rfl) (by decide)
  · exact absurd (hsigil _ _ rfl) (by decide)
  · exact absurd (hsigil _ _ rfl) (by decide)
  · exact absurd (hsigil _ _ rfl) (by decide)
  · exact absurd (hsigil _ _ rfl) (by decide)
  · obtain ⟨c, t, hnil, -⟩ := helse [] rfl
    exact absurd hnil (by simp)
  · next c rest =>
    obtain ⟨d, t, hcons, hd⟩ := helse (c :: rest) rfl
    obtain ⟨rfl, rfl⟩ := List.cons.inj hcons
    rw [if_neg (by rw [hd]; decide)]
  · simp only [hempty, Bool.false_eq_true, if_false]

end TagKind

/-! ## Scanning on behind a token -/

section Scan

variable {d : Delimiters} {start : Cursor} {source run found rest : Text} {tag : Tag}

/-- A tag is scanned together with the text in front of it. -/
theorem scanFrom_of_read (hsplit : Text.splitAtFirst d.opening source = some (run, found))
    (hback : run.getLast? ≠ some '\\')
    (hread : Tag.read d (start.advance run) found = .ok (tag, rest)) :
    scanFrom d start source =
      (scanFrom (tag.delimitersAfter d) ((start.advance run).advance tag.raw) rest).prepend
        (Token.ofRun run start ++ [.tag tag]) := by
  have hne : source ≠ [] := by
    rintro rfl
    exact absurd hsplit (by simp [Text.splitAtFirst, d.opening_ne_nil])
  rw [scanFrom, if_neg (by simpa using hne)]
  split
  · next h => rw [hsplit] at h; exact absurd h (by simp)
  · next run' found' h =>
    rw [hsplit] at h
    obtain ⟨rfl, rfl⟩ := Prod.mk.inj (Option.some.inj h)
    rw [if_neg hback]
    split
    · next e herror => rw [hread] at herror; exact absurd herror (by simp)
    · next tag' rest' hok =>
      rw [hread] at hok
      obtain ⟨rfl, rfl⟩ := Prod.mk.inj (Except.ok.inj hok)
      rfl

/-- The scan ends at a tag that cannot be read. -/
theorem scanFrom_of_read_error (hsplit : Text.splitAtFirst d.opening source = some (run, found))
    (hback : run.getLast? ≠ some '\\') {e : TemplateError}
    (hread : Tag.read d (start.advance run) found = .error e) :
    scanFrom d start source = ⟨Token.ofRun run start, .error e⟩ := by
  have hne : source ≠ [] := by
    rintro rfl
    exact absurd hsplit (by simp [Text.splitAtFirst, d.opening_ne_nil])
  rw [scanFrom, if_neg (by simpa using hne)]
  split
  · next h => rw [hsplit] at h; exact absurd h (by simp)
  · next run' found' h =>
    rw [hsplit] at h
    obtain ⟨rfl, rfl⟩ := Prod.mk.inj (Option.some.inj h)
    rw [if_neg hback]
    split
    · next e' herror => rw [hread] at herror; obtain rfl := Except.error.inj herror; rfl
    · next tag' rest' hok => rw [hread] at hok; exact absurd hok (by simp)

/-- An escaped tag is scanned together with the text in front of its backslash. -/
theorem scanFrom_of_escaped
    (hsplit : Text.splitAtFirst d.opening source = some (run ++ ['\\'], found)) :
    scanFrom d start source =
      (scanFrom d ((start.advance (run ++ ['\\'])).advance (splitEscaped d found).1)
        (splitEscaped d found).2).prepend
          (Token.ofRun run start ++
            [.text (splitEscaped d found).1 (start.advance (run ++ ['\\']))]) := by
  have hne : source ≠ [] := by
    rintro rfl
    exact absurd hsplit (by simp [Text.splitAtFirst, d.opening_ne_nil])
  rw [scanFrom, if_neg (by simpa using hne)]
  split
  · next h => rw [hsplit] at h; exact absurd h (by simp)
  · next run' found' h =>
    rw [hsplit] at h
    obtain ⟨rfl, rfl⟩ := Prod.mk.inj (Option.some.inj h)
    rw [if_pos List.getLast?_concat, List.dropLast_concat]

theorem splitAtFirst_of_opening (hsource : d.opening <+: source) :
    Text.splitAtFirst d.opening source = some ([], source) := by
  cases source with
  | nil => exact absurd (List.prefix_nil.1 hsource) d.opening_ne_nil
  | cons c source => rw [Text.splitAtFirst, if_pos hsource]

/-- A tag at the beginning of a source is scanned as a token. -/
theorem scanFrom_tag (hsource : d.opening <+: source)
    (hread : Tag.read d start source = .ok (tag, rest)) :
    scanFrom d start source =
      (scanFrom (tag.delimitersAfter d) (start.advance tag.raw) rest).prepend [.tag tag] :=
  scanFrom_of_read (splitAtFirst_of_opening hsource) (by simp) hread

theorem scanFrom_nil (d : Delimiters) (start : Cursor) : scanFrom d start [] = ⟨[], .ok start⟩ := by
  rw [scanFrom]
  rfl

/-- A text that reaches to the end is scanned as a token. -/
theorem scanFrom_text_end {t : Text} (hne : t ≠ [])
    (hsplit : Text.splitAtFirst d.opening t = none) :
    scanFrom d start t = ⟨[.text t start], .ok (start.advance t)⟩ := by
  rw [scanFrom, if_neg (by simpa using hne)]
  split
  · rfl
  · next h => rw [hsplit] at h; exact absurd h (by simp)

/-- A text in front of a tag is scanned as a token. -/
theorem scanFrom_text_append {t : Text} (hne : t ≠ []) (hback : t.getLast? ≠ some '\\')
    (hsplit : Text.splitAtFirst d.opening (t ++ rest) = some (t, rest)) :
    scanFrom d start (t ++ rest) =
      (scanFrom d (start.advance t) rest).prepend [.text t start] := by
  have hrun : Token.ofRun t start = [.text t start] := by simp [Token.ofRun, hne]
  have htail := splitAtFirst_of_opening (Text.prefix_of_splitAtFirst hsplit)
  cases hread : Tag.read d (start.advance t) rest with
  | ok r =>
    rw [scanFrom_of_read hsplit hback hread,
      scanFrom_tag (Text.prefix_of_splitAtFirst hsplit) hread, hrun]
    rfl
  | error e =>
    have hstop : scanFrom d (start.advance t) rest = ⟨[], .error e⟩ :=
      scanFrom_of_read_error htail (by simp) hread
    rw [scanFrom_of_read_error hsplit hback hread, hstop, hrun]
    rfl

end Scan

/-! ## Texts without tags -/

theorem Text.splitAtFirst_of_not_infix {needle t : Text} (h : ¬needle <:+: t) :
    Text.splitAtFirst needle t = none := by
  induction t with
  | nil =>
    rw [Text.splitAtFirst, if_neg]
    rintro rfl
    exact h List.infix_rfl
  | cons c t ih =>
    have hhere : ¬needle <+: c :: t := fun hstart => h hstart.isInfix
    rw [Text.splitAtFirst, if_neg hhere, ih fun hinside => h (List.infix_cons hinside)]
    rfl

/-- A text without two braces in a row that does not end in a brace leaves the braces behind it
alone. -/
theorem Text.splitAtFirst_braces_append {t rest : Text} (h : ¬Delimiters.braces.opening <:+: t)
    (hlast : t.getLast? ≠ some '\x7b') (hrest : Delimiters.braces.opening <+: rest) :
    Text.splitAtFirst Delimiters.braces.opening (t ++ rest) = some (t, rest) := by
  induction t with
  | nil => exact splitAtFirst_of_opening hrest
  | cons c t ih =>
    have hhere : ¬Delimiters.braces.opening <+: c :: (t ++ rest) := by
      rintro hstart
      obtain ⟨rfl, hnext⟩ := List.cons_prefix_cons.1 hstart
      cases t with
      | nil => exact hlast rfl
      | cons d t =>
        obtain ⟨rfl, -⟩ := List.cons_prefix_cons.1 hnext
        exact h (List.prefix_append Delimiters.braces.opening t).isInfix
    have hlast' : t.getLast? ≠ some '\x7b' := by
      intro heq
      exact hlast (by rw [List.getLast?_cons, heq]; rfl)
    rw [List.cons_append, Text.splitAtFirst, if_neg hhere,
      ih (fun hinside => h (List.infix_cons hinside)) hlast']
    rfl

/-- A text without braces in a row that ends neither in a brace nor in a backslash is scanned as a
token in front of a tag and at the end. -/
theorem scanFrom_text {t rest : Text} (hne : t ≠ []) (h : ¬Delimiters.braces.opening <:+: t)
    (hlast : t.getLast? ≠ some '\x7b') (hback : t.getLast? ≠ some '\\')
    (hrest : rest = [] ∨ Delimiters.braces.opening <+: rest) (start : Cursor) :
    scanFrom .braces start (t ++ rest) =
      (scanFrom .braces (start.advance t) rest).prepend [.text t start] := by
  rcases hrest with rfl | hrest
  · rw [List.append_nil, scanFrom_text_end hne (Text.splitAtFirst_of_not_infix h), scanFrom_nil]
    rfl
  · exact scanFrom_text_append hne hback (Text.splitAtFirst_braces_append h hlast hrest)

end Stencil
