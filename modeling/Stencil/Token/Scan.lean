import Stencil.Error
import Stencil.Token.Basic

/-!
# Scanning a template

The scanner looks only at the rest of the source, the delimiters in force and the cursor, and it
takes one of three steps:

* a run of text up to the next opening delimiter, or up to the end;
* an escaped tag, which is an opening delimiter behind a backslash: the backslash is dropped, and
  the text through the next closing delimiter is a run of its own;
* a tag, whose form follows from the first characters behind the opening delimiter (`TagForm`) and
  which ends at the first place where its terminator matches (`Terminator.find?`).

No step loses anything: what it reads and what it leaves make up what it started from
(`Tag.append_of_read`, `append_splitEscaped`).  As no delimiter is empty, every step uses up at
least one character (`length_afterTag_lt`, `length_afterEscaped_lt`), and that is why the scan ends.

A scan answers with all tokens up to the end or up to the first malformed tag.
-/

set_option autoImplicit false

namespace Stencil

/-! ## The end of a tag -/

/-- What ends a tag: a mark, an optional `~`, and the closing delimiter. -/
structure Terminator where
  /-- The mark that has to stand before the closing delimiter. -/
  mark : Text
  /-- The closing delimiter. -/
  closing : Text

namespace Terminator

/-- What follows the terminator at the beginning of a text, and whether it has a `~`.  A `~` that
the closing delimiter itself begins with is taken for the trimming mark if it can be. -/
def match? (e : Terminator) (t : Text) : Option (Bool × Text) :=
  match Text.stripPrefix? e.mark t with
  | none => none
  | some t =>
    match Text.stripPrefix? ('~' :: e.closing) t with
    | some rest => some (true, rest)
    | none => (Text.stripPrefix? e.closing t).map (false, ·)

/-- The text before the first terminator, whether that has a `~`, and the text behind it. -/
def find? (e : Terminator) : Text → Option (Text × Bool × Text)
  | [] => (e.match? []).map ([], ·)
  | c :: t =>
    match e.match? (c :: t) with
    | some found => some ([], found)
    | none => (e.find? t).map fun (body, found) => (c :: body, found)

/-- The source of a terminator with or without a `~`. -/
def source (e : Terminator) (trim : Bool) : Text :=
  e.mark ++ (if trim then '~' :: e.closing else e.closing)

theorem append_of_match? {e : Terminator} {t rest : Text} {trim : Bool}
    (h : e.match? t = some (trim, rest)) : t = e.source trim ++ rest := by
  unfold match? at h
  split at h
  · simp at h
  · next hm =>
    rw [Text.stripPrefix?_eq_some_iff] at hm
    split at h
    · next hc =>
      rw [Text.stripPrefix?_eq_some_iff] at hc
      simp_all [source]
    · obtain ⟨r, hr, heq⟩ := Option.map_eq_some_iff.1 h
      rw [Text.stripPrefix?_eq_some_iff] at hr
      simp only [Prod.mk.injEq] at heq
      simp [source, hm, hr, ← heq.1, heq.2]

/-- Searching for a terminator loses nothing. -/
theorem append_of_find? {e : Terminator} {t body rest : Text} {trim : Bool}
    (h : e.find? t = some (body, trim, rest)) : t = body ++ (e.source trim ++ rest) := by
  induction t generalizing body with
  | nil =>
    obtain ⟨⟨trim', rest'⟩, hm, heq⟩ := Option.map_eq_some_iff.1 h
    simp only [Prod.mk.injEq] at heq
    obtain ⟨rfl, rfl, rfl⟩ := heq
    exact append_of_match? hm
  | cons c t ih =>
    simp only [find?] at h
    split at h
    · next hm =>
      simp only [Option.some.injEq, Prod.mk.injEq] at h
      obtain ⟨rfl, rfl⟩ := h
      exact append_of_match? hm
    · obtain ⟨⟨b, tr, r⟩, hf, heq⟩ := Option.map_eq_some_iff.1 h
      simp only [Prod.mk.injEq] at heq
      obtain ⟨rfl, rfl, rfl⟩ := heq
      rw [List.cons_append, ← ih hf]

end Terminator

/-! ## The form of a tag -/

/-- The forms of tags that differ in how they end. -/
inductive TagForm where
  /-- A third brace on either side: output as it stands. -/
  | tripleBrace
  /-- A comment that may hold closing delimiters. -/
  | longComment
  /-- A comment. -/
  | comment
  /-- A pair of delimiters between equals signs. -/
  | redefinition
  /-- All other tags, told apart by the first character of their content. -/
  | plain
deriving DecidableEq, Repr

namespace TagForm

/-- The form of a tag and the text inside it, read off what follows the opening delimiter and the
trimming mark.  Third braces belong to the default delimiters only. -/
def read (d : Delimiters) : Text → TagForm × Text
  | '!' :: '-' :: '-' :: t => (.longComment, t)
  | '!' :: t => (.comment, t)
  | '=' :: t => (.redefinition, t)
  | '\x7b' :: t => if d = .braces then (.tripleBrace, t) else (.plain, '\x7b' :: t)
  | t => (.plain, t)

/-- The mark that a tag of this form ends in. -/
def endMark : TagForm → Text
  | .tripleBrace => ['\x7d']
  | .longComment => ['-', '-']
  | .redefinition => ['=']
  | .comment | .plain => []

/-- The mark that a tag of this form begins with. -/
def startMark : TagForm → Text
  | .tripleBrace => ['\x7b']
  | .longComment => ['!', '-', '-']
  | .comment => ['!']
  | .redefinition => ['=']
  | .plain => []

/-- The mark of a form and the text inside a tag make up what the form was read off. -/
@[simp] theorem startMark_append_read (d : Delimiters) (t : Text) :
    (read d t).1.startMark ++ (read d t).2 = t := by
  unfold read
  split
  case h_4 => split <;> rfl
  all_goals rfl

end TagForm

/-- The kind and the content of a tag of the plain form, from its stripped body. -/
def TagKind.ofPlain (body : Text) : Except SyntaxFault (TagKind × Text) :=
  let nonempty (kind : TagKind) (name : Text) (content : Text) :
      Except SyntaxFault (TagKind × Text) :=
    if content.isEmpty then .error (.emptyTag name) else .ok (kind, content)
  match body with
  | '#' :: rest => nonempty .block "section" (Text.strip rest)
  | '^' :: rest =>
    let content := Text.strip rest
    .ok (if content.isEmpty then .otherwise else .inverted, content)
  | '/' :: rest => nonempty .close "close" (Text.strip rest)
  | '>' :: rest => nonempty .partialRef "partial" (Text.strip rest)
  | '&' :: rest => nonempty .unescaped "unescaped" (Text.strip rest)
  | ['e', 'l', 's', 'e'] => .ok (.otherwise, [])
  | 'e' :: 'l' :: 's' :: 'e' :: c :: rest =>
    if isBlank c then .ok (.otherwise, Text.strip (c :: rest)) else .ok (.escaped, body)
  | _ => nonempty .escaped "escaped" body

/-- The kind and the content of a tag, from its form and its stripped body. -/
def TagKind.ofBody (form : TagForm) (body : Text) : Except SyntaxFault (TagKind × Text) :=
  match form with
  | .tripleBrace => if body.isEmpty then .error (.emptyTag "unescaped") else .ok (.unescaped, body)
  | .longComment | .comment => .ok (.comment, body)
  | .redefinition =>
    match Delimiters.ofContent? body with
    | some next => .ok (.delimiters next, body)
    | none => .error (.badRedefinition body)
  | .plain => TagKind.ofPlain body

/-! ## One tag -/

/-- Whether a text starts with the trimming mark, and the text without it. -/
def splitTrim : Text → Bool × Text
  | '~' :: t => (true, t)
  | t => (false, t)

/-- The source of a trimming mark that may be missing. -/
def trimSource (trim : Bool) : Text :=
  if trim then ['~'] else []

@[simp] theorem trimSource_append_splitTrim (t : Text) :
    trimSource (splitTrim t).1 ++ (splitTrim t).2 = t := by
  unfold splitTrim
  split <;> simp [trimSource]

/-- Reads the tag that the text `source` starts with, and answers it with the text behind it. -/
def Tag.read (d : Delimiters) (start : Cursor) (source : Text) :
    Except TemplateError (Tag × Text) :=
  let left := splitTrim (source.drop d.opening.length)
  let form := TagForm.read d left.2
  let terminator : Terminator := ⟨form.1.endMark, d.closing⟩
  match terminator.find? form.2 with
  | none => .error (.malformed (.unterminated d.closing) start.position)
  | some (body, trimAfter, rest) =>
    match TagKind.ofBody form.1 (Text.strip body) with
    | .error fault => .error (.malformed fault start.position)
    | .ok (kind, content) =>
      let raw := d.opening ++ (trimSource left.1 ++ (form.1.startMark ++
        (body ++ terminator.source trimAfter)))
      .ok (⟨kind, raw, content, start, left.1, trimAfter⟩, rest)

/-- Reading a tag loses nothing. -/
theorem Tag.append_of_read {d : Delimiters} {start : Cursor} {source rest : Text} {tag : Tag}
    (hs : d.opening <+: source) (h : Tag.read d start source = .ok (tag, rest)) :
    source = tag.raw ++ rest := by
  obtain ⟨behind, rfl⟩ := hs
  simp only [Tag.read, List.drop_left] at h
  split at h
  · simp at h
  · next hfind =>
    split at h
    · simp at h
    · simp only [Except.ok.injEq, Prod.mk.injEq] at h
      obtain ⟨rfl, rfl⟩ := h
      simp only [List.append_assoc, ← Terminator.append_of_find? hfind,
        TagForm.startMark_append_read, trimSource_append_splitTrim]

theorem length_afterTag_lt {d : Delimiters} {start : Cursor} {source rest : Text} {tag : Tag}
    (hs : d.opening <+: source) (h : Tag.read d start source = .ok (tag, rest)) :
    rest.length < source.length := by
  have hopen : 0 < d.opening.length := List.length_pos_iff.2 d.opening_ne_nil
  have hraw : d.opening.length ≤ tag.raw.length := by
    simp only [Tag.read] at h
    split at h
    · simp at h
    · split at h
      · simp at h
      · simp only [Except.ok.injEq, Prod.mk.injEq] at h
        rw [← h.1]
        simp
  rw [Tag.append_of_read hs h, List.length_append]
  omega

/-! ## Escaped tags -/

/-- An escaped tag at the beginning of a text and the text behind it: it reaches through the next
closing delimiter, or to the end of the text if there is none. -/
def splitEscaped (d : Delimiters) (source : Text) : Text × Text :=
  match Text.splitAtFirst d.closing (source.drop d.opening.length) with
  | none => (source, [])
  | some (body, found) =>
    (d.opening ++ (body ++ d.closing), found.drop d.closing.length)

/-- Splitting off an escaped tag loses nothing. -/
theorem append_splitEscaped {d : Delimiters} {source : Text} (hs : d.opening <+: source) :
    (splitEscaped d source).1 ++ (splitEscaped d source).2 = source := by
  obtain ⟨behind, rfl⟩ := hs
  unfold splitEscaped
  split
  · simp
  · next hsplit =>
    rw [List.drop_left] at hsplit
    obtain ⟨rest, hrest⟩ := Text.prefix_of_splitAtFirst hsplit
    rw [← Text.splitAtFirst_append hsplit]
    simp [← hrest]

theorem length_afterEscaped_lt {d : Delimiters} {source : Text} (hs : d.opening <+: source) :
    (splitEscaped d source).2.length < source.length := by
  have hopen : 0 < d.opening.length := List.length_pos_iff.2 d.opening_ne_nil
  have hescaped : d.opening.length ≤ (splitEscaped d source).1.length := by
    unfold splitEscaped
    split
    · exact hs.length_le
    · simp
  have := congrArg List.length (append_splitEscaped hs)
  rw [List.length_append] at this
  omega

/-! ## The whole template -/

/-- The outcome of a scan. -/
structure Scan where
  /-- The tokens before the end, or before the first malformed tag. -/
  tokens : List Token
  /-- The cursor at the end, or what is wrong with the first malformed tag. -/
  finish : Except TemplateError Cursor

namespace Scan

/-- Puts tokens in front of a scan. -/
def prepend (before : List Token) (s : Scan) : Scan :=
  { s with tokens := before ++ s.tokens }

end Scan

/-- The delimiters in force behind a tag. -/
def Tag.delimitersAfter (tag : Tag) (d : Delimiters) : Delimiters :=
  match tag.kind with
  | .delimiters next => next
  | _ => d

/-- Scans the text `source` that starts at a cursor, under the given delimiters. -/
def scanFrom (d : Delimiters) (start : Cursor) (source : Text) : Scan :=
  if source.isEmpty then ⟨[], .ok start⟩
  else
    match hsplit : Text.splitAtFirst d.opening source with
    | none => ⟨[.text source start], .ok (start.advance source)⟩
    | some (run, found) =>
      let here := start.advance run
      if run.getLast? = some '\\' then
        let escaped := (splitEscaped d found).1
        have : (splitEscaped d found).2.length < source.length := by
          have h₁ := length_afterEscaped_lt (Text.prefix_of_splitAtFirst hsplit)
          have h₂ := congrArg List.length (Text.splitAtFirst_append hsplit)
          simp only [List.length_append] at h₂
          omega
        (scanFrom d (here.advance escaped) (splitEscaped d found).2).prepend
          (Token.ofRun run.dropLast start ++ [.text escaped here])
      else
        match hread : Tag.read d here found with
        | .error e => ⟨Token.ofRun run start, .error e⟩
        | .ok (tag, rest) =>
          have : rest.length < source.length := by
            have h₁ := length_afterTag_lt (Text.prefix_of_splitAtFirst hsplit) hread
            have h₂ := congrArg List.length (Text.splitAtFirst_append hsplit)
            simp only [List.length_append] at h₂
            omega
          (scanFrom (tag.delimitersAfter d) (here.advance tag.raw) rest).prepend
            (Token.ofRun run start ++ [.tag tag])
termination_by source.length

/-- Scans a template. -/
def scan (d : Delimiters) (source : Text) : Scan :=
  scanFrom d .start source

end Stencil
