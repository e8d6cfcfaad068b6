import Stencil.Token.Scan

/-!
# Scanners

A scanner is made once, for a pair of delimiters, and is then given one template after the other.
It works by place: it keeps the whole text, the place that it has come to, the delimiters in force
and the places where lines start.  What it has found out about the ends of tags it also keeps from
one template to the next, a terminator for every mark and closing delimiter that it has met.

A tag that is malformed ends the work on a template in its middle, and the scanner stays as it is
there.  `Scanner.start` is what makes it ready for the next template.

What a scanner answers for a template is what `scan` says about it.
-/

set_option autoImplicit false

namespace Stencil

/-- The places behind the line feeds of a text that begins at the place `n`. -/
def lineStartsFrom (n : Nat) : Text → List Nat
  | [] => []
  | c :: t => if c = '\n' then (n + 1) :: lineStartsFrom (n + 1) t else lineStartsFrom (n + 1) t

/-- The places where the lines of a text start. -/
def lineStarts (t : Text) : List Nat :=
  0 :: lineStartsFrom 0 t

/-- A scanner. -/
structure Scanner where
  /-- The delimiters that every template begins with. -/
  initial : Delimiters
  /-- The template. -/
  text : Text := []
  /-- The place in the template that has been reached. -/
  position : Nat := 0
  /-- The length of the template. -/
  length : Nat := 0
  /-- The delimiters in force. -/
  delimiters : Delimiters
  /-- The places where lines start. -/
  lineStarts : List Nat := [0]
  /-- The ends of tags, by their marks and closing delimiters. -/
  terminators : List ((Text × Text) × Terminator) := []

namespace Scanner

/-- A new scanner. -/
def create (d : Delimiters) : Scanner where
  initial := d
  delimiters := d

/-- The scanner at the beginning of a template. -/
def start (s : Scanner) (t : Text) : Scanner :=
  { s with
    text := t, position := 0, length := t.length, delimiters := s.initial
    lineStarts := Stencil.lineStarts t }

/-! ## Looking at the template -/

/-- The text between two places. -/
def slice (s : Scanner) (start stop : Nat) : Text :=
  (s.text.take stop).drop start

/-- The first place from `start` on where a needle stands. -/
def find? (s : Scanner) (needle : Text) (start : Nat) : Option Nat :=
  (Text.splitAtFirst needle (s.text.drop start)).map fun (before, _) => start + before.length

/-- The place from `start` on where the end of a tag begins, whether it has a `~`, and the place
behind it. -/
def search (s : Scanner) (e : Terminator) (start : Nat) : Option (Nat × Bool × Nat) :=
  (e.find? (s.text.drop start)).map fun (body, trim, _) =>
    (start + body.length, trim, start + body.length + (e.source trim).length)

/-- The line and column of a place: the line is the last one that starts there or before. -/
def cursorAt (s : Scanner) (place : Nat) : Cursor :=
  let line := (s.lineStarts.takeWhile fun start => start ≤ place).length
  ⟨place, line, place - s.lineStarts.getD (line - 1) 0 + 1⟩

/-- The end of a tag with a mark, which is kept when it is asked for the first time. -/
def terminator (s : Scanner) (mark : Text) : Terminator × Scanner :=
  match s.terminators.lookup (mark, s.delimiters.closing) with
  | some e => (e, s)
  | none =>
    let e : Terminator := ⟨mark, s.delimiters.closing⟩
    (e, { s with terminators := ((mark, s.delimiters.closing), e) :: s.terminators })

/-! ## Reading on -/

/-- The text between two places as a token. -/
def readText (s : Scanner) (start stop : Nat) : Token × Scanner :=
  (.text (s.slice start stop) (s.cursorAt start), { s with position := stop })

/-- The text up to a place as a list of tokens, which is empty if the text is. -/
def readRun (s : Scanner) (stop : Nat) : List Token × Scanner :=
  if s.position < stop then
    let read := s.readText s.position stop
    ([read.1], read.2)
  else ([], s)

/-- The escaped tag at a place as a token. -/
def readEscaped (s : Scanner) (start : Nat) : Token × Scanner :=
  match s.find? s.delimiters.closing (start + s.delimiters.opening.length) with
  | none => s.readText start s.length
  | some place => s.readText start (place + s.delimiters.closing.length)

/-- Reads the tag at a place. -/
def readTag (s : Scanner) (start : Nat) : Except TemplateError Tag × Scanner :=
  let here := s.cursorAt start
  let left := splitTrim (s.text.drop (start + s.delimiters.opening.length))
  let form := (TagForm.read s.delimiters left.2).1
  let bodyStart := start + s.delimiters.opening.length + (trimSource left.1).length +
    form.startMark.length
  let terminator := s.terminator form.endMark
  let s := terminator.2
  match s.search terminator.1 bodyStart with
  | none => (.error (.malformed (.unterminated s.delimiters.closing) here.position), s)
  | some (bodyStop, trimAfter, stop) =>
    match TagKind.ofBody form (Text.strip (s.slice bodyStart bodyStop)) with
    | .error fault => (.error (.malformed fault here.position), s)
    | .ok (kind, content) =>
      let tag : Tag := ⟨kind, s.slice start stop, content, here, left.1, trimAfter⟩
      (.ok tag, { s with position := stop, delimiters := tag.delimitersAfter s.delimiters })

/-- Reads up to the end of the template or through the next tag. -/
def step (s : Scanner) : Except TemplateError (List Token) × Scanner :=
  match s.find? s.delimiters.opening s.position with
  | none =>
    let rest := s.readText s.position s.length
    (.ok [rest.1], rest.2)
  | some start =>
    if s.position < start ∧ s.text[start - 1]? = some '\\' then
      let run := s.readRun (start - 1)
      let escaped := run.2.readEscaped start
      (.ok (run.1 ++ [escaped.1]), escaped.2)
    else
      let run := s.readRun start
      match run.2.readTag start with
      | (.error e, s) => (.error e, s)
      | (.ok tag, s) => (.ok (run.1 ++ [.tag tag]), s)

/-! ## Every step reads on -/

@[simp] theorem length_terminator (s : Scanner) (mark : Text) :
    (s.terminator mark).2.length = s.length := by
  unfold terminator
  split <;> rfl

@[simp] theorem length_readRun (s : Scanner) (stop : Nat) :
    (s.readRun stop).2.length = s.length := by
  unfold readRun
  split <;> rfl

@[simp] theorem length_readEscaped (s : Scanner) (start : Nat) :
    (s.readEscaped start).2.length = s.length := by
  unfold readEscaped
  split <;> rfl

theorem le_of_find? {s : Scanner} {needle : Text} {start place : Nat}
    (h : s.find? needle start = some place) : start ≤ place := by
  obtain ⟨_, _, rfl⟩ := Option.map_eq_some_iff.1 h
  exact Nat.le_add_right _ _

theorem le_of_search {s : Scanner} {e : Terminator} {start bodyStop stop : Nat} {trim : Bool}
    (h : s.search e start = some (bodyStop, trim, stop)) : start ≤ bodyStop ∧ bodyStop ≤ stop := by
  obtain ⟨⟨body, trim', rest⟩, -, hplaces⟩ := Option.map_eq_some_iff.1 h
  simp only [Prod.mk.injEq] at hplaces
  omega

theorem length_opening_pos (d : Delimiters) : 0 < d.opening.length :=
  List.length_pos_iff.2 d.opening_ne_nil

theorem readEscaped_reads {s : Scanner} {place start : Nat} (hlength : place < s.length)
    (hstart : place < start) : place < (s.readEscaped start).2.position := by
  unfold readEscaped
  split
  · exact hlength
  · next stop hfind =>
    have hle := le_of_find? hfind
    show place < stop + s.delimiters.closing.length
    omega

theorem readTag_reads {s s' : Scanner} {start : Nat} {tag : Tag}
    (h : s.readTag start = (.ok tag, s')) : s'.length = s.length ∧ start < s'.position := by
  have hpos := length_opening_pos s.delimiters
  simp only [readTag] at h
  split at h
  · exact nomatch h
  · next hsearch =>
    have hle := le_of_search hsearch
    split at h
    · exact nomatch h
    · obtain ⟨-, rfl⟩ := Prod.mk.inj h
      refine ⟨length_terminator _ _, ?_⟩
      dsimp only
      omega

theorem step_reads {s s' : Scanner} {tokens : List Token} (hlt : s.position < s.length)
    (h : s.step = (.ok tokens, s')) : s'.length = s.length ∧ s.position < s'.position := by
  simp only [step] at h
  split at h
  · obtain ⟨-, rfl⟩ := Prod.mk.inj h
    exact ⟨rfl, hlt⟩
  · next start hfind =>
    have hle := le_of_find? hfind
    split at h
    · next hescaped =>
      obtain ⟨-, rfl⟩ := Prod.mk.inj h
      exact ⟨by simp, readEscaped_reads (by simpa using hlt) hescaped.1⟩
    · split at h
      · exact nomatch h
      · next tag s'' hread =>
        obtain ⟨-, rfl⟩ := Prod.mk.inj h
        obtain ⟨hlength, hposition⟩ := readTag_reads hread
        exact ⟨hlength.trans (length_readRun _ _), by omega⟩

/-! ## Whole templates -/

/-- Reads to the end of the template, or up to the first malformed tag, behind some tokens. -/
def run (s : Scanner) (tokens : List Token) : Except TemplateError (List Token) × Scanner :=
  if hlt : s.position < s.length then
    match hstep : s.step with
    | (.error e, s') => (.error e, s')
    | (.ok more, s') =>
      have := step_reads hlt hstep
      s'.run (tokens ++ more)
  else (.ok tokens, s)
termination_by s.length - s.position
decreasing_by omega

/-- Tokenizes a template: its tokens and the cursor at its end. -/
def tokenize (s : Scanner) (t : Text) : Except TemplateError (List Token × Cursor) × Scanner :=
  match (s.start t).run [] with
  | (.error e, s) => (.error e, s)
  | (.ok tokens, s) => (.ok (tokens, s.cursorAt s.length), s)

/-- Tokenizes one template after the other, also when one of them is malformed. -/
def tokenizeAll (s : Scanner) :
    List Text → List (Except TemplateError (List Token × Cursor)) × Scanner
  | [] => ([], s)
  | t :: ts =>
    let first := s.tokenize t
    let others := first.2.tokenizeAll ts
    (first.1 :: others.1, others.2)

end Scanner

end Stencil
