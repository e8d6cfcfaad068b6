import Stencil.Proofs.Token.Coverage
import Stencil.Proofs.Token.Printing
import Stencil.Token.Scanner

/-!
# Scanners can be used again

A scanner works by place and keeps a store of terminators; `scanFrom` sees only what is left of a
template.  Both come to the same.  While a scanner is at work, `Scanner.Holds` says what does not
change: the template with its line starts, the delimiters that it was made for, and that what is
stored for a mark and a closing delimiter is the terminator of just these.  `Scanner.step_spec` is
one step, and `Scanner.run_spec` what all steps come to, wherever they end.

So a scanner that was used before answers what `scan` does (`Scanner.tokenize_spec`), and a sequence
of templates is answered one by one as a new scanner would (`Scanner.tokenizeAll_create`).
-/

set_option autoImplicit false

namespace Stencil

/-! ## Where lines start -/

theorem lineStartsFrom_append (n : Nat) (s t : Text) :
    lineStartsFrom n (s ++ t) = lineStartsFrom n s ++ lineStartsFrom (n + s.length) t := by
  induction s generalizing n with
  | nil => rfl
  | cons c s ih =>
    rw [List.cons_append, lineStartsFrom, lineStartsFrom, ih, List.length_cons, Nat.add_right_comm,
      ← Nat.add_assoc]
    split <;> rfl

theorem lineStarts_append (s t : Text) :
    lineStarts (s ++ t) = lineStarts s ++ lineStartsFrom s.length t := by
  rw [lineStarts, lineStartsFrom_append, Nat.zero_add, ← List.cons_append, ← lineStarts]

theorem bounds_of_mem_lineStartsFrom {n k : Nat} {t : Text} (h : k ∈ lineStartsFrom n t) :
    n < k ∧ k ≤ n + t.length := by
  induction t generalizing n with
  | nil => exact absurd h List.not_mem_nil
  | cons c t ih =>
    have hlater : k ∈ lineStartsFrom (n + 1) t → n < k ∧ k ≤ n + (c :: t).length := fun hk => by
      have := ih hk
      rw [List.length_cons]
      omega
    rw [lineStartsFrom] at h
    split at h
    · rcases List.mem_cons.1 h with rfl | hk
      · rw [List.length_cons]
        omega
      · exact hlater hk
    · exact hlater h

theorem length_lineStarts (t : Text) : (lineStarts t).length = t.count '\n' + 1 := by
  have hfrom : ∀ n, (lineStartsFrom n t).length = t.count '\n' := by
    induction t with
    | nil => exact fun _ => rfl
    | cons c t ih =>
      intro n
      rw [lineStartsFrom, List.count_cons]
      by_cases hc : c = '\n'
      · rw [if_pos hc, List.length_cons, ih, if_pos (by simpa using hc)]
      · rw [if_neg hc, ih, if_neg (by simpa using hc), Nat.add_zero]
  rw [lineStarts, List.length_cons, hfrom]

/-- The last line starts behind the last line feed. -/
theorem getLast?_lineStarts (t : Text) :
    (lineStarts t).getLast? =
      some (t.length - (Text.takeEndWhile (fun a => a ≠ '\n') t).length) := by
  induction t using List.reverseRecOn with
  | nil => rfl
  | append_singleton t c ih =>
    rw [lineStarts_append, List.getLast?_append, Text.takeEndWhile, List.reverse_append,
      List.reverse_singleton, List.singleton_append, List.length_append, List.length_singleton]
    by_cases hc : c = '\n'
    · rw [List.takeWhile_cons_of_neg (by simpa using hc), lineStartsFrom, if_pos hc]
      rfl
    · rw [List.takeWhile_cons_of_pos (by simpa using hc), lineStartsFrom, if_neg hc, ih,
        List.reverse_cons, List.length_append, List.length_singleton, Nat.add_sub_add_right]
      rfl

namespace Scanner

/-- **A place is found in the table of lines** where the cursor gets by moving there. -/
theorem cursorAt_eq {s : Scanner} {front back : Text}
    (h : s.lineStarts = Stencil.lineStarts (front ++ back)) :
    s.cursorAt front.length = Cursor.start.advance front := by
  have htake : s.lineStarts.takeWhile (fun start => start ≤ front.length) =
      Stencil.lineStarts front := by
    have hfront : ∀ k ∈ Stencil.lineStarts front, decide (k ≤ front.length) = true := by
      intro k hk
      rcases List.mem_cons.1 hk with rfl | hk
      · exact decide_eq_true (Nat.zero_le _)
      · exact decide_eq_true (by have := bounds_of_mem_lineStartsFrom hk; omega)
    have hback : (lineStartsFrom front.length back).takeWhile
        (fun start => start ≤ front.length) = [] := by
      cases hlater : lineStartsFrom front.length back with
      | nil => rfl
      | cons k ks =>
        have hk := bounds_of_mem_lineStartsFrom (hlater ▸ List.mem_cons_self)
        exact List.takeWhile_cons_of_neg (by simpa using hk.1)
    rw [h, lineStarts_append, List.takeWhile_append_of_pos hfront, hback, List.append_nil]
  have hlast : s.lineStarts[front.count '\n']? =
      some (front.length - (Text.takeEndWhile (fun a => a ≠ '\n') front).length) := by
    rw [h, lineStarts_append, List.getElem?_append_left (by rw [length_lineStarts]; omega),
      ← getLast?_lineStarts, List.getLast?_eq_getElem?, length_lineStarts, Nat.add_sub_cancel]
  have hle : (Text.takeEndWhile (fun a => a ≠ '\n') front).length ≤ front.length := by
    have := congrArg List.length (Text.dropEndWhile_append_takeEndWhile (fun a => a ≠ '\n') front)
    rw [List.length_append] at this
    omega
  rw [cursorAt, htake, length_lineStarts, Cursor.mk.injEq]
  refine ⟨?_, ?_, ?_⟩
  · rw [Token.offset_advance_start]
  · rw [Cursor.line_advance, Nat.add_comm]
    rfl
  · rw [Cursor.column_advance_start, Nat.add_sub_cancel, List.getD_eq_getElem?_getD, hlast,
      Option.getD_some]
    omega

/-! ## While a scanner is at work -/

/-- What does not change from one template to the next. -/
structure IsReady (d : Delimiters) (s : Scanner) : Prop where
  /-- The scanner was made for these delimiters. -/
  initial : s.initial = d
  /-- What is stored for a mark and a closing delimiter is the terminator of just these. -/
  terminators : ∀ mark closing e,
    s.terminators.lookup (mark, closing) = some e → e = ⟨mark, closing⟩

/-- What does not change while a scanner is at work on a template. -/
structure Holds (d : Delimiters) (t : Text) (s : Scanner) : Prop extends s.IsReady d where
  /-- It has the template. -/
  text : s.text = t
  /-- It knows the length of the template. -/
  length : s.length = t.length
  /-- It knows where the lines of the template start. -/
  lineStarts : s.lineStarts = Stencil.lineStarts t

namespace Holds

variable {d : Delimiters} {t front middle back : Text} {s : Scanner}

/-- Neither the place nor the delimiters matter. -/
theorem move (h : s.Holds d t) (position : Nat) (delimiters : Delimiters) :
    Holds d t { s with position, delimiters } :=
  ⟨⟨h.initial, h.terminators⟩, h.text, h.length, h.lineStarts⟩

/-- Before the end of the template something is left. -/
theorem ne_nil (h : s.Holds d (front ++ back)) (hposition : s.position = front.length)
    (hlt : s.position < s.length) : back ≠ [] := by
  rintro rfl
  rw [h.length, hposition, List.append_nil] at hlt
  exact absurd hlt (Nat.lt_irrefl _)

theorem drop (h : s.Holds d (front ++ back)) : s.text.drop front.length = back := by
  rw [h.text, List.drop_left]

theorem slice (h : s.Holds d (front ++ (middle ++ back))) :
    s.slice front.length (front.length + middle.length) = middle := by
  rw [Scanner.slice, h.text, ← List.append_assoc, ← List.length_append, List.take_left,
    List.drop_left]

theorem cursorAt (h : s.Holds d (front ++ back)) :
    s.cursorAt front.length = Cursor.start.advance front :=
  cursorAt_eq h.lineStarts

theorem find? (h : s.Holds d (front ++ back)) (needle : Text) :
    s.find? needle front.length =
      (Text.splitAtFirst needle back).map fun (before, _) => front.length + before.length := by
  rw [Scanner.find?, h.drop]

theorem search (h : s.Holds d (front ++ back)) (e : Terminator) :
    s.search e front.length = (e.find? back).map fun (body, trim, _) =>
      (front.length + body.length, trim, front.length + body.length + (e.source trim).length) := by
  rw [Scanner.search, h.drop]

/-- A terminator that is asked for is the one of the mark and the delimiters in force. -/
theorem terminator (h : s.Holds d t) (mark : Text) :
    (s.terminator mark).1 = ⟨mark, s.delimiters.closing⟩ ∧ (s.terminator mark).2.Holds d t ∧
      (s.terminator mark).2.position = s.position ∧
      (s.terminator mark).2.delimiters = s.delimiters := by
  rw [Scanner.terminator]
  split
  · next e hlookup => exact ⟨h.terminators _ _ _ hlookup, h, rfl, rfl⟩
  · refine ⟨rfl, ⟨⟨h.initial, ?_⟩, h.text, h.length, h.lineStarts⟩, rfl, rfl⟩
    intro mark' closing' e hlookup
    dsimp only at hlookup
    rw [List.lookup_cons] at hlookup
    split at hlookup
    · next hkey =>
      obtain ⟨rfl, rfl⟩ := Prod.mk.inj (beq_iff_eq.1 hkey)
      exact (Option.some.inj hlookup).symm
    · exact h.terminators _ _ _ hlookup

/-- What is read as a text is a token, and the scanner moves behind it. -/
theorem readText (h : s.Holds d (front ++ (middle ++ back))) :
    s.readText front.length (front.length + middle.length) =
      (.text middle (Cursor.start.advance front),
        { s with position := (front ++ middle).length }) := by
  rw [Scanner.readText, h.slice, h.cursorAt, List.length_append]

/-- What is read as a run is a token if there is anything to be read. -/
theorem readRun (h : s.Holds d (front ++ (middle ++ back)))
    (hposition : s.position = front.length) :
    s.readRun (front.length + middle.length) =
      (Token.ofRun middle (Cursor.start.advance front),
        { s with position := (front ++ middle).length }) := by
  rw [Scanner.readRun, Token.ofRun, hposition]
  cases middle with
  | nil =>
    rw [if_neg (by simp), List.append_nil, ← hposition]
    rfl
  | cons c middle =>
    rw [if_pos (by simp), h.readText]
    rfl

/-- An escaped tag is a token that reaches as far as it does in what is left of the template. -/
theorem readEscaped {found : Text} (h : s.Holds d (front ++ found))
    (hopening : s.delimiters.opening <+: found) :
    s.readEscaped front.length =
      (.text (splitEscaped s.delimiters found).1 (Cursor.start.advance front),
        { s with position := (front ++ (splitEscaped s.delimiters found).1).length }) := by
  obtain ⟨behind, rfl⟩ := hopening
  have hbehind := h
  rw [← List.append_assoc] at hbehind
  rw [Scanner.readEscaped, ← List.length_append, hbehind.find?, splitEscaped, List.drop_left]
  cases hsplit : Text.splitAtFirst s.delimiters.closing behind with
  | none =>
    have hlength : s.length = front.length + (s.delimiters.opening ++ behind).length := by
      rw [h.length, List.length_append]
    have hall := h
    rw [← List.append_nil (s.delimiters.opening ++ behind)] at hall
    have hread := hall.readText
    rw [← hlength] at hread
    exact hread
  | some split =>
    obtain ⟨body, closed⟩ := split
    obtain ⟨rest, rfl⟩ := Text.prefix_of_splitAtFirst hsplit
    have hstop : (front ++ s.delimiters.opening).length + body.length +
        s.delimiters.closing.length =
          front.length + (s.delimiters.opening ++ (body ++ s.delimiters.closing)).length := by
      simp only [List.length_append]
      omega
    have hall : s.Holds d (front ++ ((s.delimiters.opening ++ (body ++ s.delimiters.closing)) ++
        rest)) := by
      rw [← Text.splitAtFirst_append hsplit] at h
      simpa only [List.append_assoc] using h
    dsimp only [Option.map_some]
    rw [hstop, hall.readText]

/-- The tag at a place is the one that what is left of the template begins with. -/
theorem readTag {found : Text} (h : s.Holds d (front ++ found))
    (hopening : s.delimiters.opening <+: found) :
    (s.readTag front.length).1 =
        (Tag.read s.delimiters (Cursor.start.advance front) found).map (·.1) ∧
      (s.readTag front.length).2.Holds d (front ++ found) ∧
      ∀ tag rest, Tag.read s.delimiters (Cursor.start.advance front) found = .ok (tag, rest) →
        (s.readTag front.length).2.position = (front ++ tag.raw).length ∧
        (s.readTag front.length).2.delimiters = tag.delimitersAfter s.delimiters := by
  have hcursor := h.cursorAt
  obtain ⟨behind, rfl⟩ := hopening
  have hbehind : s.text.drop (front.length + s.delimiters.opening.length) = behind := by
    rw [← List.append_assoc] at h
    rw [← List.length_append, h.drop]
  simp only [Scanner.readTag, Tag.read, hbehind, hcursor, List.drop_left]
  have hleft := trimSource_append_splitTrim behind
  generalize splitTrim behind = left at hleft
  have hform := TagForm.startMark_append_read s.delimiters left.2
  generalize TagForm.read s.delimiters left.2 = form at hform
  obtain ⟨hterminator, hholds, -, hdelimiters⟩ := h.terminator form.1.endMark
  generalize s.terminator form.1.endMark = asked at hterminator hholds hdelimiters
  obtain ⟨e, s'⟩ := asked
  dsimp only at hterminator hholds hdelimiters
  subst hterminator
  dsimp only
  rw [hdelimiters]
  -- the body of the tag begins where the mark of its form ends
  have hbodyStart : front.length + s.delimiters.opening.length + (trimSource left.1).length +
      form.1.startMark.length =
        (front ++ (s.delimiters.opening ++ (trimSource left.1 ++ form.1.startMark))).length := by
    simp only [List.length_append]
    omega
  rw [hbodyStart]
  have hbody : s'.Holds d
      ((front ++ (s.delimiters.opening ++ (trimSource left.1 ++ form.1.startMark))) ++ form.2) := by
    rw [← hleft, ← hform] at hholds
    simpa only [List.append_assoc] using hholds
  cases hfind : (⟨form.1.endMark, s.delimiters.closing⟩ : Terminator).find? form.2 with
  | none =>
    rw [hbody.search, hfind]
    exact ⟨rfl, hholds, fun tag rest hok => absurd hok (by simp)⟩
  | some found =>
    obtain ⟨body, trimAfter, rest⟩ := found
    have hend := Terminator.append_of_find? hfind
    have hslice := hend ▸ hbody
    rw [hbody.search, hfind]
    dsimp only [Option.map_some]
    rw [hslice.slice]
    cases TagKind.ofBody form.1 (Text.strip body) with
    | error fault => exact ⟨rfl, hholds, fun tag rest hok => absurd hok (by simp)⟩
    | ok result =>
      obtain ⟨kind, content⟩ := result
      generalize hraw : s.delimiters.opening ++ (trimSource left.1 ++ (form.1.startMark ++
        (body ++ Terminator.source ⟨form.1.endMark, s.delimiters.closing⟩ trimAfter))) = raw
      have hall : s'.Holds d (front ++ (raw ++ rest)) := by
        rw [← hraw]
        simpa only [List.append_assoc] using hslice
      have hstop : (front ++ (s.delimiters.opening ++ (trimSource left.1 ++
          form.1.startMark))).length + body.length +
            (Terminator.source ⟨form.1.endMark, s.delimiters.closing⟩ trimAfter).length =
              front.length + raw.length := by
        rw [← hraw]
        simp only [List.length_append]
        omega
      dsimp only
      rw [hstop, hall.slice]
      refine ⟨rfl, hholds.move _ _, fun tag rest' hok => ?_⟩
      obtain ⟨rfl, rfl⟩ := Prod.mk.inj (Except.ok.inj hok)
      exact ⟨List.length_append.symm, rfl⟩

end Holds

/-! ## One step -/

/-- What a step of a scanner comes to that has read `front` and has `rest` left: it stops where the
scan of the rest does, or it reads on to where the scan is after the tokens that it has made. -/
inductive StepsTo (d : Delimiters) (s : Scanner) (front rest : Text) :
    Except TemplateError (List Token) × Scanner → Prop
  /-- A tag is malformed. -/
  | stops {e : TemplateError} {s' : Scanner} (hholds : s'.Holds d (front ++ rest))
      (hscan : (scanFrom s.delimiters (Cursor.start.advance front) rest).finish = .error e) :
      StepsTo d s front rest (.error e, s')
  /-- Some of the template has been read. -/
  | readsOn {tokens : List Token} {s' : Scanner} {read left : Text}
      (hholds : s'.Holds d (front ++ rest)) (hrest : read ++ left = rest)
      (hposition : s'.position = (front ++ read).length)
      (hscan : scanFrom s.delimiters (Cursor.start.advance front) rest =
        (scanFrom s'.delimiters (Cursor.start.advance (front ++ read)) left).prepend tokens) :
      StepsTo d s front rest (.ok tokens, s')

theorem getElem?_before_iff {front run found : Text} {c : Char} :
    (front.length < front.length + run.length ∧
      (front ++ (run ++ found))[front.length + run.length - 1]? = some c) ↔
        run.getLast? = some c := by
  rcases List.eq_nil_or_concat' run with rfl | ⟨run, a, rfl⟩
  · simp
  · have hplace : front.length + (run ++ [a]).length - 1 = (front ++ run).length := by
      simp only [List.length_append, List.length_singleton]
      omega
    rw [hplace, List.append_assoc, ← List.append_assoc, List.getElem?_append_right le_rfl,
      Nat.sub_self, List.getLast?_concat]
    simp

variable {d : Delimiters} {front rest : Text} {s : Scanner}

/-- Behind the last tag everything is read as a text. -/
theorem stepsTo_of_splitAtFirst_eq_none (h : s.Holds d (front ++ rest))
    (hposition : s.position = front.length) (hne : rest ≠ [])
    (hsplit : Text.splitAtFirst s.delimiters.opening rest = none) :
    StepsTo d s front rest s.step := by
  have hall := h
  rw [← List.append_nil rest] at hall
  have hread := hall.readText
  rw [← List.length_append, ← h.length] at hread
  simp only [step, hposition, h.find?, hsplit]
  dsimp only [Option.map_none]
  rw [hread]
  refine .readsOn (h.move _ _) (List.append_nil rest) h.length ?_
  rw [scanFrom_text_end hne hsplit, scanFrom_nil, Cursor.advance_append]
  rfl

section Tag

variable {run found : Text} (h : s.Holds d (front ++ rest))
  (hsplit : Text.splitAtFirst s.delimiters.opening rest = some (run, found))

include h hsplit

/-- The character in front of a tag is found at its place. -/
theorem getElem?_before_tag_iff :
    (front.length < front.length + run.length ∧
      s.text[front.length + run.length - 1]? = some '\\') ↔ run.getLast? = some '\\' := by
  rw [h.text, ← Text.splitAtFirst_append hsplit]
  exact getElem?_before_iff

/-- Behind a backslash a tag is read as a text, after the text that ends in front of it. -/
theorem stepsTo_of_escaped (hposition : s.position = front.length)
    (hback : run.getLast? = some '\\') : StepsTo d s front rest s.step := by
  have hopening := Text.prefix_of_splitAtFirst hsplit
  have hrest := Text.splitAtFirst_append hsplit
  have hescaped := (getElem?_before_tag_iff h hsplit).2 hback
  obtain ⟨before, rfl⟩ : ∃ before : Text, run = before ++ ['\\'] :=
    List.getLast?_eq_some_iff.1 hback
  have hbefore : s.Holds d (front ++ (before ++ '\\' :: found)) := by
    rw [← hrest, List.append_assoc] at h
    exact h
  have hfound : Holds d ((front ++ (before ++ ['\\'])) ++ found)
      { s with position := (front ++ before).length } := by
    rw [← hrest, ← List.append_assoc] at h
    exact h.move _ _
  have hplace : front.length + (before ++ ['\\']).length - 1 =
      front.length + before.length := by
    rw [List.length_append]
    rfl
  have hread : (before ++ ['\\']) ++ (splitEscaped s.delimiters found).1 ++
      (splitEscaped s.delimiters found).2 = rest := by
    rw [List.append_assoc, append_splitEscaped hopening, hrest]
  simp only [step, hposition, h.find?, hsplit]
  dsimp only [Option.map_some]
  rw [if_pos hescaped, hplace, hbefore.readRun hposition, ← List.length_append,
    hfound.readEscaped hopening]
  refine .readsOn (h.move _ _) hread ?_ ?_
  · exact congrArg List.length (List.append_assoc _ _ _)
  · rw [scanFrom_of_escaped hsplit]
    simp only [Cursor.advance_append]

/-- Any other tag is read as a tag, after the text in front of it, or it is malformed. -/
theorem stepsTo_of_tag (hposition : s.position = front.length)
    (hback : run.getLast? ≠ some '\\') : StepsTo d s front rest s.step := by
  have hopening := Text.prefix_of_splitAtFirst hsplit
  have hrest := Text.splitAtFirst_append hsplit
  have hunescaped := mt (getElem?_before_tag_iff h hsplit).1 hback
  have hrun := h
  rw [← hrest] at hrun
  have hfound : Holds d ((front ++ run) ++ found)
      { s with position := (front ++ run).length } := by
    rw [List.append_assoc]
    exact hrun.move _ _
  obtain ⟨hanswer, hholds, hmoved⟩ := hfound.readTag hopening
  simp only [step, hposition, h.find?, hsplit]
  dsimp only [Option.map_some]
  rw [if_neg hunescaped, hrun.readRun hposition, ← List.length_append]
  rw [Cursor.advance_append] at hanswer hmoved
  rw [List.append_assoc, hrest] at hholds
  generalize Scanner.readTag _ (front ++ run).length = result at hanswer hholds hmoved
  obtain ⟨answer, s'⟩ := result
  obtain rfl := hanswer
  cases hread : Tag.read s.delimiters ((Cursor.start.advance front).advance run) found with
  | error e =>
    refine .stops hholds ?_
    rw [scanFrom_of_read_error hsplit hback hread]
  | ok result =>
    obtain ⟨tag, left⟩ := result
    obtain ⟨hposition', hdelimiters⟩ := hmoved tag left hread
    have hfront : run ++ tag.raw ++ left = rest := by
      rw [List.append_assoc, ← Tag.append_of_read hopening hread, hrest]
    refine .readsOn hholds hfront ?_ ?_
    · rw [hposition', List.append_assoc]
    · rw [scanFrom_of_read hsplit hback hread, hdelimiters]
      simp only [Cursor.advance_append]

end Tag

/-- **A step of a scanner is a step of the scan** of what it has left. -/
theorem step_spec (h : s.Holds d (front ++ rest)) (hposition : s.position = front.length)
    (hne : rest ≠ []) : StepsTo d s front rest s.step := by
  cases hsplit : Text.splitAtFirst s.delimiters.opening rest with
  | none => exact stepsTo_of_splitAtFirst_eq_none h hposition hne hsplit
  | some split =>
    by_cases hback : split.1.getLast? = some '\\'
    · exact stepsTo_of_escaped h hsplit hposition hback
    · exact stepsTo_of_tag h hsplit hposition hback

/-! ## All steps -/

section Run

variable {s' : Scanner}

theorem run_of_error (hlt : s.position < s.length) {e : TemplateError}
    (hstep : s.step = (.error e, s')) (tokens : List Token) : s.run tokens = (.error e, s') := by
  rw [run, dif_pos hlt]
  split
  · next h => rw [hstep] at h; exact h.symm
  · next h => rw [hstep] at h; exact absurd h (by simp)

theorem run_of_ok (hlt : s.position < s.length) {more : List Token}
    (hstep : s.step = (.ok more, s')) (tokens : List Token) :
    s.run tokens = s'.run (tokens ++ more) := by
  rw [run, dif_pos hlt]
  split
  · next h => rw [hstep] at h; exact absurd h (by simp)
  · next h =>
    rw [hstep] at h
    obtain ⟨hmore, rfl⟩ := Prod.mk.inj h
    obtain rfl := Except.ok.inj hmore
    rfl

end Run

/-- **What a scanner reads is what the scan reads**, wherever it is in a template and whatever it
has stored, and what it holds it still holds where it stops. -/
theorem run_spec (h : s.Holds d (front ++ rest)) (hposition : s.position = front.length)
    (tokens : List Token) :
    (s.run tokens).2.Holds d (front ++ rest) ∧
      (s.run tokens).1 = (scanFrom s.delimiters (Cursor.start.advance front) rest).finish.map
        fun _ => tokens ++ (scanFrom s.delimiters (Cursor.start.advance front) rest).tokens := by
  induction s, tokens using run.induct generalizing front rest with
  | case1 s tokens hlt e s' hstep =>
    have hspec := step_spec h hposition (h.ne_nil hposition hlt)
    rw [hstep] at hspec
    rw [run_of_error hlt hstep]
    cases hspec with
    | stops hholds hscan => exact ⟨hholds, by rw [hscan]; rfl⟩
  | case2 s tokens hlt more s' hstep hreads ih =>
    have hspec := step_spec h hposition (h.ne_nil hposition hlt)
    rw [hstep] at hspec
    rw [run_of_ok hlt hstep]
    cases hspec with
    | @readsOn _ _ read left hholds hrest hposition' hscan =>
      subst hrest
      rw [← List.append_assoc] at hholds ⊢
      obtain ⟨hend, hanswer⟩ := ih hholds hposition'
      refine ⟨hend, ?_⟩
      rw [hanswer, hscan]
      simp only [Scan.prepend, List.append_assoc]
  | case3 s tokens hend =>
    have hrest : rest = [] := by
      rw [h.length, hposition, List.length_append] at hend
      exact List.length_eq_zero_iff.1 (by omega)
    subst hrest
    rw [run, dif_neg hend, scanFrom_nil]
    exact ⟨h, congrArg Except.ok (List.append_nil tokens).symm⟩

end Scanner

/-- What a scan answers: all tokens and the cursor at the end, or what is wrong with a tag. -/
def Scan.answer (scan : Scan) : Except TemplateError (List Token × Cursor) :=
  scan.finish.map fun stop => (scan.tokens, stop)

namespace Scanner

/-! ## One template after the other -/

theorem isReady_create (d : Delimiters) : (create d).IsReady d :=
  ⟨rfl, nofun⟩

theorem IsReady.holds_start {d : Delimiters} {s : Scanner} (h : s.IsReady d) (t : Text) :
    (s.start t).Holds d t :=
  ⟨⟨h.initial, h.terminators⟩, rfl, rfl, rfl⟩

/-- **What a scanner answers for a template is what the scan answers**, whatever it has been used
for before, and it is ready for the next one afterwards. -/
theorem tokenize_spec {d : Delimiters} {s : Scanner} (h : s.IsReady d) (t : Text) :
    (s.tokenize t).1 = (scan d t).answer ∧ (s.tokenize t).2.IsReady d := by
  have hstart : (s.start t).Holds d ([] ++ t) := h.holds_start t
  obtain ⟨hholds, hanswer⟩ := run_spec hstart rfl []
  have hdelimiters : (s.start t).delimiters = d := h.initial
  rw [hdelimiters] at hanswer
  generalize hrun : (s.start t).run [] = result at hholds hanswer
  obtain ⟨answer, s'⟩ := result
  obtain rfl := hanswer
  rw [tokenize, hrun, Scan.answer]
  have hscan : scanFrom d (Cursor.start.advance []) t = scan d t := rfl
  rw [hscan]
  cases hfinish : (scan d t).finish with
  | error e => exact ⟨rfl, hholds.toIsReady⟩
  | ok stop =>
    -- the cursor is looked up at the end, where the scan has moved to
    have hstop : s'.cursorAt s'.length = stop := by
      rw [hholds.length]
      rw [List.nil_append, ← List.append_nil t] at hholds
      have hsource : t = [] ++ t := rfl
      obtain ⟨-, hend⟩ := Token.cover_of_scans (scans_scan hfinish) hsource rfl
      rw [hend]
      exact hholds.cursorAt
    refine ⟨?_, hholds.toIsReady⟩
    dsimp only [Except.map]
    rw [hstop]
    rfl

/-- **A scanner can be used again.**  The templates of a sequence are answered one by one as a new
scanner for the same delimiters would answer them, with all tokens of the scan or with what is wrong
with a tag, whatever delimiters earlier templates have set and wherever they were malformed. -/
theorem tokenizeAll_create (d : Delimiters) (ts : List Text) :
    ((create d).tokenizeAll ts).1 = ts.map (fun t => ((create d).tokenize t).1) ∧
      ∀ t, ((create d).tokenize t).1 = (scan d t).answer := by
  have hnew : ∀ t, ((create d).tokenize t).1 = (scan d t).answer :=
    fun t => (tokenize_spec (isReady_create d) t).1
  have hall : ∀ s : Scanner, s.IsReady d →
      (s.tokenizeAll ts).1 = ts.map fun t => (scan d t).answer := by
    induction ts with
    | nil => exact fun _ _ => rfl
    | cons t ts ih =>
      intro s hs
      obtain ⟨hfirst, hready⟩ := tokenize_spec hs t
      rw [tokenizeAll, List.map_cons, hfirst, ih _ hready]
  refine ⟨?_, hnew⟩
  rw [hall _ (isReady_create d)]
  exact List.map_congr_left fun t _ => (hnew t).symm

end Scanner

end Stencil
