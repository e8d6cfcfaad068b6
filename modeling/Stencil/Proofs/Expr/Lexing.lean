import Stencil.Proofs.Except
import Stencil.Proofs.Expr.Printing

/-!
# Stretches of a parameter list

What stands between two parentheses is a parameter list of its own, and it should have the tokens
there that it has when it is all there is.  But a number and a key look at the character behind
them, and a bracketed group is entered only if it is closed anywhere further on, so this has to be
shown: `lexFrom_closing` cuts the tokens of a text at a closing parenthesis, and `lexFrom_back`
moves them to the front.

The first of these rests on `Lexeme.read?_of_append`, which takes away what a token was followed
by; it is the converse of `Lexeme.read?_append`.  If a bracketed group were closed only in what is
taken away, then the token would not have ended before it.
-/

set_option autoImplicit false

namespace Stencil

namespace Lexeme

variable {rest t raw after : Text}

/-! ## Tokens without what follows them -/

theorem eq_nil_of_append_eq_self (h : t ++ rest = rest) : t = [] :=
  List.append_cancel_right (h.trans (List.nil_append rest).symm)

/-- What is left of a text in quotes ends at the closing quote, whatever follows. -/
theorem readQuotedRest_self {quote : Char} (hquote : quote ≠ '\\')
    (h : readQuotedRest quote t = some (raw, rest)) :
    readQuotedRest quote raw = some (raw, []) := by
  fun_induction readQuotedRest quote t generalizing raw with
  | case1 => exact absurd h (by simp)
  | case2 => exact absurd h (by simp)
  | case3 c t hc ih =>
    obtain ⟨⟨r, s⟩, hr, heq⟩ := Option.map_eq_some_iff.1 h
    obtain ⟨rfl, rfl⟩ := Prod.mk.inj heq
    simp [readQuotedRest, hc, ih hr]
  | case4 t =>
    obtain ⟨rfl, rfl⟩ := Prod.mk.inj (Option.some.inj h)
    rw [readQuotedRest_cons hquote, if_pos rfl]
  | case5 => exact absurd h (by simp)
  | case6 c t _ hstop hslash ih =>
    obtain ⟨⟨r, s⟩, hr, heq⟩ := Option.map_eq_some_iff.1 h
    obtain ⟨rfl, rfl⟩ := Prod.mk.inj heq
    rw [readQuotedRest_cons hslash, if_neg hstop, ih hr]
    rfl

theorem readQuoted?_self (h : readQuoted? t = some (raw, rest)) :
    readQuoted? raw = some (raw, []) := by
  cases t with
  | nil => exact absurd h (by simp [readQuoted?])
  | cons c t =>
    rw [readQuoted?] at h
    split at h
    · next hquote =>
      obtain ⟨⟨r, s⟩, hr, heq⟩ := Option.map_eq_some_iff.1 h
      obtain ⟨rfl, rfl⟩ := Prod.mk.inj heq
      rw [readQuoted?, if_pos hquote,
        readQuotedRest_self (by rcases hquote with rfl | rfl <;> decide) hr]
      rfl
    · exact absurd h (by simp)

theorem readQuoted?_of_append (h : readQuoted? (t ++ rest) = some (raw, after ++ rest)) :
    readQuoted? t = some (raw, after) := by
  have ht : t = raw ++ after := by
    have happ := append_of_readQuoted? h
    rw [← List.append_assoc] at happ
    exact List.append_cancel_right happ
  rw [ht, readQuoted?_append (readQuoted?_self h)]
  rfl

/-- A bracketed group that is not closed in a text takes all of it. -/
theorem readWord_inside_append (h : ']' ∉ t) :
    (readWord true (t ++ rest)).2 = (readWord true rest).2 := by
  induction t with
  | nil => rfl
  | cons c t ih =>
    have hc : (c != ']') = true := by
      rw [bne_iff_ne]
      rintro rfl
      exact h List.mem_cons_self
    rw [List.cons_append]
    simp only [readWord, if_true, hc]
    exact ih fun hmem => h (List.mem_cons_of_mem _ hmem)

/-- A word that starts inside brackets has at least one character. -/
theorem length_readWord_inside_lt (h : t ≠ []) : (readWord true t).2.length < t.length := by
  obtain ⟨c, t, rfl⟩ := List.exists_cons_of_ne_nil h
  have happ := congrArg List.length (append_readWord (c != ']') t)
  rw [List.length_append] at happ
  simp only [readWord, if_true, List.length_cons]
  omega

theorem readWord_of_append {inside : Bool}
    (h : readWord inside (t ++ rest) = (raw, after ++ rest)) :
    readWord inside t = (raw, after) := by
  induction t generalizing inside raw with
  | nil =>
    have happ := append_readWord inside rest
    rw [List.nil_append] at h
    rw [h, ← List.append_assoc] at happ
    obtain ⟨rfl, rfl⟩ := List.append_eq_nil_iff.1 (eq_nil_of_append_eq_self happ)
    rfl
  | cons c t ih =>
    rw [List.cons_append] at h
    -- where the word goes on behind the character, it goes on in the same way
    have hgoes : ∀ {onward : Bool}, (c :: (readWord onward (t ++ rest)).1,
          (readWord onward (t ++ rest)).2) = (raw, after ++ rest) →
        (c :: (readWord onward t).1, (readWord onward t).2) = (raw, after) := by
      intro onward hword
      obtain ⟨rfl, hafter⟩ := Prod.mk.inj hword
      rw [ih (Prod.ext rfl hafter)]
    have hstops : ([], c :: (t ++ rest)) = (raw, after ++ rest) → ([], c :: t) = (raw, after) := by
      intro hword
      obtain ⟨rfl, hafter⟩ := Prod.mk.inj hword
      rw [← List.cons_append] at hafter
      rw [List.append_cancel_right hafter]
    simp only [readWord] at h ⊢
    by_cases hin : inside = true
    · rw [if_pos hin] at h ⊢
      exact hgoes h
    rw [if_neg hin] at h ⊢
    by_cases hopen : c = '['
    · rw [if_pos hopen] at h ⊢
      by_cases hclosed : ']' ∈ t
      · rw [if_pos (List.mem_append_left rest hclosed)] at h
        rw [if_pos hclosed]
        exact hgoes h
      rw [if_neg hclosed]
      split at h
      · next hmem =>
        -- the group is closed in what follows, where the word is said not to reach
        have hrest : rest ≠ [] :=
          List.ne_nil_of_mem ((List.mem_append.1 hmem).resolve_left hclosed)
        have hshort := length_readWord_inside_lt hrest
        have hafter := congrArg (fun r => r.2.length) h
        simp only [readWord_inside_append hclosed, List.length_append] at hafter
        omega
      · exact hstops h
    rw [if_neg hopen] at h ⊢
    split at h
    · next hpart =>
      rw [if_pos hpart]
      exact hgoes h
    · next hpart =>
      rw [if_neg hpart]
      exact hstops h

theorem readWord?_of_append (h : readWord? (t ++ rest) = some (raw, after ++ rest)) :
    readWord? t = some (raw, after) := by
  rw [readWord?] at h
  split at h
  · exact absurd h (by simp)
  · next hne =>
    have hword := Option.some.inj h
    rw [hword] at hne
    rw [readWord?, readWord_of_append hword, if_neg hne]

/-- **What follows a token may be taken away** from where a token may end. -/
theorem read?_of_append (hrest : endsNumber rest = true) {lexeme : Lexeme}
    (h : read? (t ++ rest) = some (lexeme, after ++ rest)) : read? t = some (lexeme, after) := by
  obtain _ | ⟨c, t⟩ := t
  · obtain ⟨happ, hne⟩ := append_of_read? h
    rw [List.nil_append, ← List.append_assoc] at happ
    exact absurd (List.append_eq_nil_iff.1 (eq_nil_of_append_eq_self happ.symm)).1 hne
  by_cases hopen : c = '('
  · subst hopen
    obtain ⟨rfl, hafter⟩ := Prod.mk.inj (Option.some.inj h)
    rw [List.append_cancel_right hafter]
    rfl
  by_cases hclose : c = ')'
  · subst hclose
    obtain ⟨rfl, hafter⟩ := Prod.mk.inj (Option.some.inj h)
    rw [List.append_cancel_right hafter]
    rfl
  have hkey := readKey?_append hrest (List.cons_ne_nil c t)
  have hnumber := readNumber?_append hrest (c :: t)
  have hread : ∀ {β : Type} {f : β → Lexeme} {r : β × Text},
      (f r.1, r.2 ++ rest) = (lexeme, after ++ rest) → (f r.1, r.2) = (lexeme, after) := by
    intro β f r heq
    obtain ⟨rfl, hafter⟩ := Prod.mk.inj heq
    rw [List.append_cancel_right hafter]
  rw [List.cons_append] at h hkey hnumber
  rw [read?_cons hopen hclose] at h ⊢
  cases hq : readQuoted? (c :: (t ++ rest)) with
  | some r =>
    rw [hq] at h
    obtain ⟨rfl, hafter⟩ := Prod.mk.inj (Option.some.inj h)
    have hquoted : readQuoted? (c :: t) = some (r.1, after) :=
      readQuoted?_of_append (hq.trans (congrArg some (Prod.ext rfl hafter)))
    rw [hquoted]
    rfl
  | none =>
    have hquoted : readQuoted? (c :: t) = none := by
      by_contra hne
      obtain ⟨r, hr⟩ := Option.ne_none_iff_exists'.1 hne
      have happ := @readQuoted?_append (c :: t) r.1 r.2 hr rest
      rw [List.cons_append, hq] at happ
      cases happ
    rw [hq, hkey, hnumber] at h
    rw [hquoted]
    cases hk : readKey? (c :: t) with
    | some r =>
      rw [hk] at h
      exact congrArg some (hread (Option.some.inj h))
    | none =>
      rw [hk] at h
      cases hn : readNumber? (c :: t) with
      | some r =>
        rw [hn] at h
        exact congrArg some (hread (Option.some.inj h))
      | none =>
        rw [hn] at h
        obtain ⟨r, hr, heq⟩ := Option.map_eq_some_iff.1 h
        obtain ⟨rfl, hafter⟩ := Prod.mk.inj heq
        have hword : readWord? (c :: t) = some (r.1, after) :=
          readWord?_of_append (hr.trans (congrArg some (Prod.ext rfl hafter)))
        rw [hword]
        rfl

end Lexeme

/-! ## The tokens of a text one after the other -/

/-- A gap between tokens: there is nothing in it but blanks. -/
def IsGap (t : Text) : Prop :=
  ∀ c ∈ t, isBlank c = true

/-- A gap in front of a text is passed over. -/
theorem lexFrom_gap {gap : Text} (hgap : IsGap gap) (n : Nat) (t : Text) :
    lexFrom n (gap ++ t) = lexFrom (n + gap.length) t := by
  induction gap generalizing n with
  | nil => rfl
  | cons c gap ih =>
    rw [List.cons_append, lexFrom_blank (hgap c List.mem_cons_self),
      ih (fun d hd => hgap d (List.mem_cons_of_mem _ hd)), List.length_cons,
      Nat.add_comm gap.length, Nat.add_assoc]

/-- A gap holds no token. -/
theorem lexFrom_of_isGap {gap : Text} (hgap : IsGap gap) (n : Nat) : lexFrom n gap = .ok [] := by
  rw [← List.append_nil gap, lexFrom_gap hgap, lexFrom]

/-- A text without tokens is a gap. -/
theorem isGap_of_lexFrom {n : Nat} {t : Text} (h : lexFrom n t = .ok []) : IsGap t := by
  fun_induction lexFrom n t with
  | case1 => exact nofun
  | case2 n c rest hc ih =>
    intro d hd
    rcases List.mem_cons.1 hd with rfl | hd
    · exact hc
    · exact ih h d hd
  | case3 => cases h
  | case4 n c rest hc lexeme after hread stop shorter ih =>
    obtain ⟨ts, -, hcons⟩ := Except.map_eq_ok.1 h
    cases hcons

/-- **The first token of a text** stands behind a gap, and the others are those of the rest. -/
theorem exists_of_lexFrom_cons {n : Nat} {t : Text} {token : ArgToken} {ts : List ArgToken}
    (h : lexFrom n t = .ok (token :: ts)) :
    ∃ gap front after, IsGap gap ∧ t = gap ++ front ∧
      Lexeme.read? front = some (token.lexeme, after) ∧ token.start = n + gap.length ∧
        token.stop = token.start + token.lexeme.source.length ∧
          lexFrom token.stop after = .ok ts := by
  fun_induction lexFrom n t with
  | case1 => cases h
  | case2 n c rest hc ih =>
    obtain ⟨gap, front, after, hgap, rfl, hread, hstart, hrest⟩ := ih h
    refine ⟨c :: gap, front, after, ?_, rfl, hread, ?_, hrest⟩
    · intro d hd
      rcases List.mem_cons.1 hd with rfl | hd
      · exact hc
      · exact hgap d hd
    · rw [hstart, List.length_cons]
      omega
  | case3 => cases h
  | case4 n c rest hc lexeme after hread stop shorter ih =>
    obtain ⟨us, hus, hcons⟩ := Except.map_eq_ok.1 h
    obtain ⟨rfl, rfl⟩ := List.cons.inj hcons
    exact ⟨[], c :: rest, after, nofun, rfl, hread, rfl, rfl, hus⟩

/-- A gap and a token are lexed before the rest. -/
theorem lexFrom_gap_token {gap front after : Text} {lexeme : Lexeme} {ts : List ArgToken}
    (hgap : IsGap gap) (hread : Lexeme.read? front = some (lexeme, after)) {n start stop : Nat}
    (hstart : start = n + gap.length) (hstop : stop = start + lexeme.source.length)
    (hafter : lexFrom stop after = .ok ts) :
    lexFrom n (gap ++ front) = .ok (⟨lexeme, start, stop⟩ :: ts) := by
  subst hstart hstop
  rw [lexFrom_gap hgap, lexFrom_token hread, hafter]
  rfl

/-- **A text is cut at a closing parenthesis**: what stands before it has the tokens before it, and
what stands behind it those behind it. -/
theorem lexFrom_closing {ts us : List ArgToken} {closing : ArgToken}
    (hlexeme : closing.lexeme = .closing) {n : Nat} {t : Text}
    (h : lexFrom n t = .ok (ts ++ closing :: us)) :
    ∃ inner rest, t = inner ++ ')' :: rest ∧ lexFrom n inner = .ok ts ∧
      closing.stop = n + inner.length + 1 ∧ lexFrom closing.stop rest = .ok us := by
  induction ts generalizing n t with
  | nil =>
    obtain ⟨gap, front, after, hgap, rfl, hread, hstart, hstop, hafter⟩ := exists_of_lexFrom_cons h
    rw [hlexeme] at hread hstop
    obtain rfl := (Lexeme.append_of_read? hread).1
    refine ⟨gap, after, rfl, lexFrom_of_isGap hgap n, ?_, hafter⟩
    rw [← hstart]
    exact hstop
  | cons token ts ih =>
    obtain ⟨gap, front, after, hgap, rfl, hread, hstart, hstop, hafter⟩ := exists_of_lexFrom_cons h
    obtain ⟨inner, rest, rfl, hinner, hstop', hrest⟩ := ih hafter
    obtain ⟨rfl, -⟩ := Lexeme.append_of_read? hread
    rw [← List.append_assoc] at hread
    have hread := Lexeme.read?_of_append (by rfl) hread
    refine ⟨gap ++ (token.lexeme.source ++ inner), rest, by simp only [List.append_assoc],
      lexFrom_gap_token hgap hread hstart hstop hinner, ?_, hrest⟩
    rw [hstop', List.length_append, List.length_append]
    omega

/-- **What is enclosed in parentheses has the tokens between them.** -/
theorem lexFrom_enclosed {ts us : List ArgToken} {opening closing : ArgToken}
    (hopening : opening.lexeme = .opening) (hclosing : closing.lexeme = .closing) {n : Nat}
    {t : Text} (h : lexFrom n t = .ok (opening :: (ts ++ closing :: us))) :
    ∃ gap inner rest, IsGap gap ∧ t = gap ++ (('(' :: (inner ++ [')'])) ++ rest) ∧
      opening.start = n + gap.length ∧ closing.stop = opening.start + inner.length + 2 ∧
        lexFrom (opening.start + 1) inner = .ok ts ∧ lexFrom closing.stop rest = .ok us := by
  obtain ⟨gap, front, after, hgap, rfl, hread, hstart, hstop, hafter⟩ := exists_of_lexFrom_cons h
  rw [hopening] at hread hstop
  obtain ⟨rfl, -⟩ := Lexeme.append_of_read? hread
  obtain ⟨inner, rest, rfl, hinner, hend, hrest⟩ := lexFrom_closing hclosing hafter
  refine ⟨gap, inner, rest, hgap, ?_, hstart, ?_, hstop ▸ hinner, hrest⟩
  · simp [Lexeme.source, Lexeme.text]
  · have hlength : Lexeme.opening.source.length = 1 := rfl
    omega

/-- A token that stands `k` characters further to the front. -/
def ArgToken.back (k : Nat) (t : ArgToken) : ArgToken :=
  ⟨t.lexeme, t.start - k, t.stop - k⟩

/-- **A text has the same tokens wherever it stands.** -/
theorem lexFrom_back {ts : List ArgToken} {n k : Nat} {t : Text} (h : lexFrom (n + k) t = .ok ts) :
    lexFrom n t = .ok (ts.map (ArgToken.back k)) := by
  induction ts generalizing n t with
  | nil => exact lexFrom_of_isGap (isGap_of_lexFrom h) n
  | cons token ts ih =>
    obtain ⟨gap, front, after, hgap, rfl, hread, hstart, hstop, hafter⟩ := exists_of_lexFrom_cons h
    have hplace : token.stop - k + k = token.stop := by omega
    rw [← hplace] at hafter
    exact lexFrom_gap_token hgap hread (by omega) (by omega) (ih hafter)

/-- The tokens of a text stand inside it. -/
theorem mem_of_lexFrom {ts : List ArgToken} {n : Nat} {t : Text} (h : lexFrom n t = .ok ts)
    {token : ArgToken} (hmem : token ∈ ts) :
    n ≤ token.start ∧ token.start ≤ token.stop ∧ token.stop ≤ n + t.length := by
  induction ts generalizing n t with
  | nil => exact absurd hmem List.not_mem_nil
  | cons first ts ih =>
    obtain ⟨gap, front, after, hgap, rfl, hread, hstart, hstop, hafter⟩ := exists_of_lexFrom_cons h
    obtain ⟨rfl, -⟩ := Lexeme.append_of_read? hread
    simp only [List.length_append]
    rcases List.mem_cons.1 hmem with rfl | hmem
    · omega
    · have := ih hafter hmem
      omega

end Stencil
