import Stencil.Proofs.Token.Printing
import Stencil.Proofs.Token.Scanned

/-!
# Delimiters that a template sets

A template that begins with a tag that sets the delimiters is scanned like the rest of it under
those delimiters from the start (`scan_redefinition`).  There are two reasons.

* A scan reads nothing but the rest of the source, the delimiters in force and the cursor, and it
  only ever moves the cursor.  Starting some columns further on the first line therefore makes the
  same tokens and fails for the same reason, and all places are shifted alike (`scanFrom_shift`).
* The tag is read as it is meant whatever the delimiters are, since neither of them holds a blank or
  an equals sign (`Tag.read_redefinition`).
-/

set_option autoImplicit false

namespace Stencil

/-! ## Places that are shifted -/

/-- A position that is shifted by some columns if it is on the first line. -/
def Position.shift (n : Nat) (p : Position) : Position :=
  ⟨p.line, if p.line = 1 then p.column + n else p.column⟩

namespace Cursor

/-- A cursor behind further characters on the first line. -/
def shift (n : Nat) (c : Cursor) : Cursor :=
  ⟨c.offset + n, c.line, if c.line = 1 then c.column + n else c.column⟩

theorem step_shift (n : Nat) {c : Cursor} (h : 0 < c.line) (a : Char) :
    (c.shift n).step a = (c.step a).shift n := by
  unfold step
  split
  · have hline : ¬c.line = 0 := Nat.pos_iff_ne_zero.1 h
    simp [shift, hline, Nat.add_right_comm]
  · simp only [shift]
    split <;> simp [Nat.add_right_comm]

theorem line_advance_pos {c : Cursor} (h : 0 < c.line) (t : Text) : 0 < (c.advance t).line := by
  rw [line_advance]
  exact Nat.add_pos_left h _

/-- Moving a cursor moves a shifted cursor alike. -/
theorem advance_shift (n : Nat) {c : Cursor} (h : 0 < c.line) (t : Text) :
    (c.shift n).advance t = (c.advance t).shift n := by
  induction t generalizing c with
  | nil => rfl
  | cons a t ih =>
    have hstep : 0 < (c.step a).line := line_advance_pos h [a]
    rw [advance, List.foldl_cons, ← advance, step_shift n h, ih hstep]
    rfl

/-- A text without a line feed moves a cursor along its line. -/
theorem advance_of_not_mem {t : Text} (h : '\n' ∉ t) (c : Cursor) :
    c.advance t = ⟨c.offset + t.length, c.line, c.column + t.length⟩ := by
  induction t generalizing c with
  | nil => rfl
  | cons a t ih =>
    obtain ⟨ha, ht⟩ := not_or.1 (mt List.mem_cons.2 h)
    rw [advance, List.foldl_cons, ← advance, ih ht, step, if_neg (Ne.symm ha), List.length_cons]
    simp only [Nat.add_assoc, Nat.add_comm 1]

end Cursor

/-- A tag that is shifted. -/
def Tag.shift (n : Nat) (t : Tag) : Tag :=
  { t with start := t.start.shift n }

/-- A token that is shifted. -/
def Token.shift (n : Nat) : Token → Token
  | .text raw start => .text raw (start.shift n)
  | .tag t => .tag (t.shift n)

/-- A malformed tag that is shifted.  Nothing else stops a scan. -/
def TemplateError.shift (n : Nat) : TemplateError → TemplateError
  | .malformed fault p => .malformed fault (p.shift n)
  | e => e

/-- A scan of which all places are shifted. -/
def Scan.shift (n : Nat) (s : Scan) : Scan :=
  ⟨s.tokens.map (Token.shift n), (s.finish.mapError (TemplateError.shift n)).map (Cursor.shift n)⟩

theorem Scan.shift_prepend (n : Nat) (before : List Token) (s : Scan) :
    (s.prepend before).shift n = (s.shift n).prepend (before.map (Token.shift n)) := by
  rw [prepend, shift, List.map_append]
  rfl

theorem Token.ofRun_shift (n : Nat) (run : Text) (start : Cursor) :
    ofRun run (start.shift n) = (ofRun run start).map (shift n) := by
  unfold ofRun
  split <;> rfl

/-! ## Scans that start elsewhere -/

theorem Tag.read_shift (n : Nat) (d : Delimiters) (start : Cursor) (source : Text) :
    Tag.read d (start.shift n) source =
      ((Tag.read d start source).mapError (TemplateError.shift n)).map
        fun (tag, rest) => (tag.shift n, rest) := by
  simp only [Tag.read]
  split
  · rfl
  · split <;> rfl

/-- **A scan that starts further on the first line** differs in nothing but its places. -/
theorem scanFrom_shift (n : Nat) (d : Delimiters) {c : Cursor} (h : 0 < c.line) (source : Text) :
    scanFrom d (c.shift n) source = (scanFrom d c source).shift n := by
  fun_induction scanFrom d c source with
  | case1 d c source hnil =>
    obtain rfl := List.isEmpty_iff.1 hnil
    rw [scanFrom_nil]
    rfl
  | case2 d c source hne hsplit =>
    rw [scanFrom_text_end (by simpa using hne) hsplit, Cursor.advance_shift n h]
    rfl
  | case3 d c source hne run found hsplit here hback escaped _ ih =>
    have hrun : run = run.dropLast ++ ['\\'] := (List.dropLast_append_getLast? _ hback).symm
    have hhere : 0 < here.line := Cursor.line_advance_pos h run
    have hescaped := Cursor.line_advance_pos hhere escaped
    have hstep := @scanFrom_of_escaped d (c.shift n) source run.dropLast found (hrun ▸ hsplit)
    rw [← hrun, Cursor.advance_shift n h, Cursor.advance_shift n hhere, ih hescaped,
      Token.ofRun_shift] at hstep
    rw [hstep, Scan.shift_prepend, List.map_append]
    rfl
  | case4 d c source hne run found hsplit here hback e hread =>
    have hstop : Tag.read d ((c.shift n).advance run) found = .error (e.shift n) := by
      rw [Cursor.advance_shift n h, Tag.read_shift, hread]
      rfl
    rw [scanFrom_of_read_error hsplit hback hstop, Token.ofRun_shift]
    rfl
  | case5 d c source hne run found hsplit here hback tag rest hread _ ih =>
    have hhere : 0 < here.line := Cursor.line_advance_pos h run
    have hbehind := Cursor.line_advance_pos hhere tag.raw
    have hstep : Tag.read d ((c.shift n).advance run) found = .ok (tag.shift n, rest) := by
      rw [Cursor.advance_shift n h, Tag.read_shift, hread]
      rfl
    rw [scanFrom_of_read hsplit hback hstep, Cursor.advance_shift n h, Token.ofRun_shift,
      Scan.shift_prepend, List.map_append, ← ih hbehind, ← Cursor.advance_shift n hhere]
    rfl

/-! ## The tag that sets the delimiters -/

/-- A text without blanks in front of anything belongs to one word. -/
theorem Text.words_go_append {s : Text} (h : ∀ c ∈ s, isBlank c = false) (run t : Text) :
    words.go run (s ++ t) = words.go (s.reverse ++ run) t := by
  induction s generalizing run with
  | nil => rfl
  | cons c s ih =>
    obtain ⟨hc, hs⟩ := List.forall_mem_cons.1 h
    rw [List.cons_append, words.go, hc, List.reverse_cons, List.append_assoc]
    exact ih hs (c :: run)

/-- A tag ends at the first mark if its body holds no character that a mark can begin with. -/
theorem Terminator.find?_append_of_not_mem {e : Terminator} {m : Char} {more : Text}
    (hmark : e.mark = m :: more) {body : Text} (hbody : m ∉ body) {t rest : Text} {trim : Bool}
    (hend : e.match? t = some (trim, rest)) : e.find? (body ++ t) = some (body, trim, rest) := by
  induction body with
  | nil => exact find?_of_match? hend
  | cons c body ih =>
    obtain ⟨hc, hbody⟩ := not_or.1 (mt List.mem_cons.2 hbody)
    have hnone : e.match? (c :: (body ++ t)) = none := by
      rw [match?, hmark, Text.stripPrefix?, if_neg hc]
    rw [List.cons_append, find?, hnone, ih hbody]
    rfl

namespace Delimiters

/-- What stands inside the tag that sets the delimiters, between its equals signs. -/
def content (d : Delimiters) : Text :=
  d.opening ++ ' ' :: d.closing

/-- The tag that sets the delimiters, as it is written between the default ones. -/
def redefinition (d : Delimiters) : Text :=
  braces.opening ++ ('=' :: (d.content ++ '=' :: braces.closing))

theorem isTrim_content (d : Delimiters) : d.content.IsTrim := by
  obtain ⟨c, rest, hopening, hc⟩ := d.exists_opening
  obtain ⟨front, e, hclosing, he⟩ := d.exists_closing
  exact ⟨⟨c, rest ++ ' ' :: d.closing, by rw [content, hopening]; rfl, hc⟩,
    ⟨d.opening ++ ' ' :: front, e, by simp [content, hclosing], he⟩⟩

/-- The delimiters are what is read between the equals signs. -/
theorem ofContent?_content (d : Delimiters) : ofContent? d.content = some d := by
  have hopening : ∀ c ∈ d.opening, isBlank c = false := fun _ => d.isBlank_of_mem_opening
  have hclosing : ∀ c ∈ d.closing, isBlank c = false := fun _ => d.isBlank_of_mem_closing
  have hsecond : Text.words.go [] d.closing = [d.closing] := by
    have h := Text.words_go_append hclosing [] []
    rw [List.append_nil, List.append_nil] at h
    simp [h, Text.words.go, d.closing_ne_nil]
  have hwords : Text.words d.content = [d.opening, d.closing] := by
    rw [Text.words, content, Text.words_go_append hopening, List.append_nil, Text.words.go,
      hsecond]
    simp [d.opening_ne_nil, show isBlank ' ' = true by decide]
  rw [ofContent?, hwords]
  exact ofPair?_eq_some_iff.2 ⟨rfl, rfl⟩

theorem ne_equals_of_isDelimiter {t : Text} (h : isDelimiter t = true) : '=' ∉ t := by
  intro hmem
  rw [isDelimiter, Bool.and_eq_true, List.all_eq_true] at h
  exact absurd (h.2 _ hmem) (by decide)

theorem equals_not_mem_content (d : Delimiters) : '=' ∉ d.content := by
  have hopening := ne_equals_of_isDelimiter d.isDelimiter_opening
  have hclosing := ne_equals_of_isDelimiter d.isDelimiter_closing
  simp [content, hopening, hclosing]

theorem newline_not_mem_redefinition (d : Delimiters) : '\n' ∉ d.redefinition := by
  have hopening : '\n' ∉ d.opening := fun h => nomatch d.isBlank_of_mem_opening h
  have hclosing : '\n' ∉ d.closing := fun h => nomatch d.isBlank_of_mem_closing h
  simp [redefinition, content, braces, hopening, hclosing]

/-- The token of the tag that sets the delimiters. -/
def redefinitionTag (d : Delimiters) : Tag :=
  ⟨.delimiters d, d.redefinition, d.content, .start, false, false⟩

end Delimiters

/-- **The tag that sets the delimiters is read as it is meant**, whatever they are. -/
theorem Tag.read_redefinition (d : Delimiters) (source : Text) :
    Tag.read .braces .start (d.redefinition ++ source) = .ok (d.redefinitionTag, source) := by
  have hsource : d.redefinition ++ source = Delimiters.braces.opening ++
      ('=' :: (d.content ++ '=' :: (Delimiters.braces.closing ++ source))) := by
    simp only [Delimiters.redefinition, List.append_assoc, List.cons_append]
  have hfind : (⟨['='], Delimiters.braces.closing⟩ : Terminator).find?
      (d.content ++ '=' :: (Delimiters.braces.closing ++ source)) =
        some (d.content, false, source) :=
    Terminator.find?_append_of_not_mem rfl d.equals_not_mem_content rfl
  have htrim : ∀ t, splitTrim ('=' :: t) = (false, '=' :: t) := fun _ => rfl
  have hform : ∀ t, TagForm.read .braces ('=' :: t) = (.redefinition, t) := fun _ => rfl
  rw [hsource, read, List.drop_left]
  simp only [htrim, hform, TagForm.endMark, hfind, TagKind.ofBody, d.isTrim_content.strip_eq,
    d.ofContent?_content]
  rfl

/-- **Delimiters that a template sets act like initial ones.**  A template that begins with a tag
that sets them is scanned as that tag and then as the rest under those delimiters from the start: it
gives the same tokens or is refused for the same reason, and the places are those behind the tag,
with the columns shifted on the first line only. -/
theorem scan_redefinition (d : Delimiters) (source : Text) :
    scan .braces (d.redefinition ++ source) =
      ((scan d source).shift d.redefinition.length).prepend [.tag d.redefinitionTag] := by
  have hopening : Delimiters.braces.opening <+: d.redefinition ++ source := by
    rw [Delimiters.redefinition, List.append_assoc]
    exact List.prefix_append _ _
  have hbehind : Cursor.start.advance d.redefinition =
      Cursor.start.shift d.redefinition.length := by
    rw [Cursor.advance_of_not_mem d.newline_not_mem_redefinition]
    rfl
  rw [scan, scanFrom_tag hopening (Tag.read_redefinition d source)]
  rw [show d.redefinitionTag.raw = d.redefinition from rfl, hbehind,
    scanFrom_shift _ _ Nat.one_pos]
  rfl

end Stencil
