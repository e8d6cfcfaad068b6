import Stencil.Proofs.Expr.Lexing

/-!
# The tokens of a parameter list cover it

Cutting a parameter list into tokens leaves nothing out but blanks (`ArgToken.Cover`), and every
token is a matter of the text from its start on, whatever stands before it.  Or else there is a
character that no token begins with, and it stands where that is said.

That the cutting comes to an end at all is shown against a table of rules (`LexRule`), which are
tried one after the other at every place.  Nothing in the table says that a rule applies
everywhere: the last one takes any character but a line feed.  Nor does it say that a rule takes
something.  A run of the table (`Lexes`) is therefore an inductive relation, with a derivation for
every run that ends and for no other one.

* `LexRule.exists_first?` — at every place of a text some rule applies, and it takes at least one
  character.
* `LexRule.first?_of_read?`, `LexRule.first?_of_read?_none` — where there is no blank, the rule that
  applies first is the one that reads a token, or else the last of the table.
* `Lexes.iff_eq_lexToEnd` — a text has one run, and it comes to the tokens that `lexFrom` answers
  and stops at the end of the text.
* `lex_covers` — the payoff.
-/

set_option autoImplicit false

namespace Stencil

/-! ## The table of rules -/

/-- What may be taken from the beginning of a text. -/
inductive LexRule where
  /-- All blanks up to the next other character. -/
  | blanks
  /-- A parenthesis. -/
  | parenthesis
  /-- A text in quotes. -/
  | quoted
  /-- A key with its equals sign. -/
  | key
  /-- A number. -/
  | number
  /-- A word. -/
  | word
  /-- Any character but a line feed. -/
  | other
deriving DecidableEq, Repr

namespace LexRule

/-- The rules in the order in which they are tried. -/
def all : List LexRule :=
  [.blanks, .parenthesis, .quoted, .key, .number, .word, .other]

/-- What a rule takes from the beginning of a text, and the rest. -/
def take? : LexRule → Text → Option (Text × Text)
  | .blanks, t =>
    if t.takeWhile isBlank = [] then none else some (t.takeWhile isBlank, t.dropWhile isBlank)
  | .parenthesis, c :: t => if c = '(' ∨ c = ')' then some ([c], t) else none
  | .quoted, t => Lexeme.readQuoted? t
  | .key, t => (Lexeme.readKey? t).map fun (name, rest) => (name ++ ['='], rest)
  | .number, t => Lexeme.readNumber? t
  | .word, t => Lexeme.readWord? t
  | .other, c :: t => if c = '\n' then none else some ([c], t)
  | .parenthesis, [] | .other, [] => none

/-- The token that a rule makes of what it has taken, if it makes one. -/
def lexeme? : LexRule → Text → Option Lexeme
  | .blanks, _ | .other, _ => none
  | .parenthesis, raw => some (if raw = ['('] then .opening else .closing)
  | .quoted, raw => some (.quoted raw)
  | .key, raw => some (.key raw.dropLast)
  | .number, raw => some (.number raw)
  | .word, raw => some (.word raw)

/-- The first rule that applies at the beginning of a text, what it takes, and the rest. -/
def first? (t : Text) : Option (LexRule × Text × Text) :=
  all.findSome? fun rule => (rule.take? t).map (rule, ·)

variable {c : Char} {t rest : Text} {lexeme : Lexeme}

/-! ## The rule that applies first -/

theorem first?_nil : first? [] = none := by
  rfl

/-- Where a blank stands, all blanks up to the next other character are taken. -/
theorem first?_blank (hc : isBlank c = true) (t : Text) :
    first? (c :: t) =
      some (.blanks, (c :: t).takeWhile isBlank, (c :: t).dropWhile isBlank) := by
  simp [first?, all, take?, hc]

/-- Where no blank stands, the other rules are tried. -/
theorem first?_cons (hc : isBlank c = false) (t : Text) :
    first? (c :: t) =
      all.tail.findSome? fun rule => (rule.take? (c :: t)).map (rule, ·) := by
  simp [first?, all, take?, hc]

/-- **Where a token begins, the rule of its class applies first**, takes the source of the token and
makes the token of it. -/
theorem first?_of_read? (h : Lexeme.read? t = some (lexeme, rest)) :
    ∃ rule, first? t = some (rule, lexeme.source, rest) ∧
      rule.lexeme? lexeme.source = some lexeme := by
  obtain _ | ⟨c, t⟩ := t
  · exact absurd h (by simp [Lexeme.read?])
  rw [first?_cons (Lexeme.isBlank_of_read? h)]
  by_cases hopen : c = '('
  · subst hopen
    obtain ⟨rfl, rfl⟩ := Prod.mk.inj (Option.some.inj h)
    exact ⟨.parenthesis, rfl, rfl⟩
  by_cases hclose : c = ')'
  · subst hclose
    obtain ⟨rfl, rfl⟩ := Prod.mk.inj (Option.some.inj h)
    exact ⟨.parenthesis, rfl, rfl⟩
  rw [Lexeme.read?_cons hopen hclose] at h
  simp only [all, List.tail_cons, List.findSome?_cons, take?, hopen, hclose, or_self, if_false,
    Option.map_none]
  cases hq : Lexeme.readQuoted? (c :: t) with
  | some r =>
    rw [hq] at h
    obtain ⟨rfl, rfl⟩ := Prod.mk.inj (Option.some.inj h)
    exact ⟨.quoted, rfl, rfl⟩
  | none =>
    cases hk : Lexeme.readKey? (c :: t) with
    | some r =>
      rw [hq, hk] at h
      obtain ⟨rfl, rfl⟩ := Prod.mk.inj (Option.some.inj h)
      refine ⟨.key, rfl, ?_⟩
      simp [lexeme?, Lexeme.source]
    | none =>
      cases hn : Lexeme.readNumber? (c :: t) with
      | some r =>
        rw [hq, hk, hn] at h
        obtain ⟨rfl, rfl⟩ := Prod.mk.inj (Option.some.inj h)
        exact ⟨.number, rfl, rfl⟩
      | none =>
        rw [hq, hk, hn] at h
        obtain ⟨r, hr, heq⟩ := Option.map_eq_some_iff.1 h
        obtain ⟨rfl, rfl⟩ := Prod.mk.inj heq
        rw [hr]
        exact ⟨.word, rfl, rfl⟩

/-- **Where neither a blank nor a token begins, the last rule takes the character**, which is no
line feed because that is a blank. -/
theorem first?_of_read?_none (hc : isBlank c = false) (h : Lexeme.read? (c :: t) = none) :
    first? (c :: t) = some (.other, [c], t) := by
  have hopen : c ≠ '(' := by
    rintro rfl
    exact absurd h (by simp [Lexeme.read?])
  have hclose : c ≠ ')' := by
    rintro rfl
    exact absurd h (by simp [Lexeme.read?])
  have hline : c ≠ '\n' := by
    rintro rfl
    exact absurd hc (by decide)
  rw [Lexeme.read?_cons hopen hclose] at h
  simp only [Option.or_eq_none_iff, Option.map_eq_none_iff] at h
  obtain ⟨hq, hk, hn, hw⟩ := h
  rw [first?_cons hc]
  simp [all, take?, hopen, hclose, hline, hq, hk, hn, hw]

/-- What a rule has found that applies first: a gap, a token, or a character that begins none. -/
inductive Finds (t : Text) : LexRule → Text → Text → Prop
  /-- A gap stands at the beginning. -/
  | gap {gap rest : Text} (hgap : IsGap gap) (hne : gap ≠ []) (happ : t = gap ++ rest) :
      Finds t .blanks gap rest
  /-- A token stands at the beginning, and the rule makes it. -/
  | token {rule : LexRule} {lexeme : Lexeme} {raw rest : Text} (hraw : raw = lexeme.source)
      (hread : Lexeme.read? t = some (lexeme, rest)) (hlexeme : rule.lexeme? raw = some lexeme) :
      Finds t rule raw rest
  /-- Neither a blank nor a token stands at the beginning. -/
  | refused {c : Char} {raw rest : Text} (hraw : raw = [c]) (happ : t = c :: rest)
      (hc : isBlank c = false) (hread : Lexeme.read? t = none) : Finds t .other raw rest

/-- What is found stands at the beginning of the text, and it is not empty. -/
theorem Finds.append {rule : LexRule} {raw : Text} (h : Finds t rule raw rest) :
    t = raw ++ rest ∧ raw ≠ [] := by
  cases h with
  | gap hgap hne happ => exact ⟨happ, hne⟩
  | token hraw hread hlexeme => exact hraw ▸ Lexeme.append_of_read? hread
  | refused hraw happ hc hread =>
    subst hraw
    exact ⟨happ, List.cons_ne_nil _ _⟩

/-- **At every place of a text some rule applies**, and it takes at least one character. -/
theorem exists_first? (h : t ≠ []) :
    ∃ rule raw rest, first? t = some (rule, raw, rest) ∧ Finds t rule raw rest := by
  obtain ⟨c, t, rfl⟩ := List.exists_cons_of_ne_nil h
  by_cases hc : isBlank c = true
  · refine ⟨_, _, _, first?_blank hc t, .gap (fun d hd => List.mem_takeWhile_imp hd) ?_ ?_⟩
    · rw [List.takeWhile_cons_of_pos hc]
      exact List.cons_ne_nil _ _
    · rw [List.takeWhile_append_dropWhile]
  · rw [Bool.not_eq_true] at hc
    cases hread : Lexeme.read? (c :: t) with
    | none => exact ⟨_, _, _, first?_of_read?_none hc hread, .refused rfl rfl hc hread⟩
    | some r =>
      obtain ⟨rule, hfirst, hlexeme⟩ := first?_of_read? hread
      exact ⟨rule, _, _, hfirst, .token rfl hread hlexeme⟩

/-- A rule that applies first has found something. -/
theorem finds_of_first? {rule : LexRule} {raw : Text} (h : first? t = some (rule, raw, rest)) :
    Finds t rule raw rest := by
  have hne : t ≠ [] := by
    rintro rfl
    exact absurd h (by simp [first?_nil])
  obtain ⟨rule', raw', rest', hfirst, hfinds⟩ := exists_first? hne
  have heq := Option.some.inj (h.symm.trans hfirst)
  simp only [Prod.mk.injEq] at heq
  obtain ⟨rfl, rfl, rfl⟩ := heq
  exact hfinds

end LexRule

/-! ## Runs of the table -/

/-- A run of the rules on a text that stands behind some characters comes to an end, either with
tokens and the place where they end, or at a character that no token begins with. -/
inductive Lexes : Nat → Text → Except Unexpected (List ArgToken × Nat) → Prop
  /-- At the end of the text the run ends. -/
  | finished (n : Nat) : Lexes n [] (.ok ([], n))
  /-- Blanks are passed over. -/
  | blanks {n : Nat} {t gap rest : Text} {outcome : Except Unexpected (List ArgToken × Nat)}
      (hfirst : LexRule.first? t = some (.blanks, gap, rest))
      (hrest : Lexes (n + gap.length) rest outcome) : Lexes n t outcome
  /-- A token is kept with the place where it stands. -/
  | token {n : Nat} {rule : LexRule} {t raw rest : Text} {lexeme : Lexeme}
      {outcome : Except Unexpected (List ArgToken × Nat)}
      (hfirst : LexRule.first? t = some (rule, raw, rest))
      (hlexeme : rule.lexeme? raw = some lexeme)
      (hrest : Lexes (n + raw.length) rest outcome) :
      Lexes n t (outcome.map fun (ts, stop) => (⟨lexeme, n, n + raw.length⟩ :: ts, stop))
  /-- Any other character ends the run. -/
  | refused {n : Nat} {t rest : Text} {c : Char}
      (hfirst : LexRule.first? t = some (.other, [c], rest)) : Lexes n t (.error ⟨c, n⟩)

/-- What `lexFrom` answers, with the place where the text ends. -/
def lexToEnd (n : Nat) (t : Text) : Except Unexpected (List ArgToken × Nat) :=
  (lexFrom n t).map fun ts => (ts, n + t.length)

theorem lexToEnd_gap {gap : Text} (hgap : IsGap gap) (n : Nat) (rest : Text) :
    lexToEnd n (gap ++ rest) = lexToEnd (n + gap.length) rest := by
  rw [lexToEnd, lexToEnd, lexFrom_gap hgap, List.length_append, Nat.add_assoc]

theorem lexToEnd_token {t rest : Text} {lexeme : Lexeme}
    (hread : Lexeme.read? t = some (lexeme, rest)) (n : Nat) :
    lexToEnd n t = (lexToEnd (n + lexeme.source.length) rest).map fun (ts, stop) =>
      (⟨lexeme, n, n + lexeme.source.length⟩ :: ts, stop) := by
  obtain ⟨happ, -⟩ := Lexeme.append_of_read? hread
  have hlength : n + t.length = n + lexeme.source.length + rest.length := by
    rw [happ, List.length_append, Nat.add_assoc]
  rw [lexToEnd, lexToEnd, lexFrom_token hread, hlength]
  cases lexFrom (n + lexeme.source.length) rest <;> rfl

/-- Where neither a blank nor a token begins, the character is unexpected. -/
theorem lexFrom_refused {c : Char} {rest : Text} (hc : isBlank c = false)
    (hread : Lexeme.read? (c :: rest) = none) (n : Nat) :
    lexFrom n (c :: rest) = .error ⟨c, n⟩ := by
  rw [lexFrom, if_neg (by rw [hc]; decide)]
  split
  · rfl
  · next hsome => rw [hread] at hsome; exact absurd hsome (by simp)

theorem lexToEnd_refused {c : Char} {rest : Text} (hc : isBlank c = false)
    (hread : Lexeme.read? (c :: rest) = none) (n : Nat) :
    lexToEnd n (c :: rest) = .error ⟨c, n⟩ := by
  rw [lexToEnd, lexFrom_refused hc hread]
  rfl

namespace Lexes

/-- A run comes to what `lexFrom` answers. -/
theorem eq_lexToEnd {n : Nat} {t : Text} {outcome : Except Unexpected (List ArgToken × Nat)}
    (h : Lexes n t outcome) : outcome = lexToEnd n t := by
  induction h with
  | finished n => rw [lexToEnd, lexFrom]; rfl
  | blanks hfirst hrest ih =>
    cases LexRule.finds_of_first? hfirst with
    | gap hgap hne happ => rw [ih, happ, lexToEnd_gap hgap]
    | token hraw hread hlexeme => exact absurd hlexeme (by simp [LexRule.lexeme?])
  | token hfirst hlexeme hrest ih =>
    cases LexRule.finds_of_first? hfirst with
    | gap hgap hne happ => exact absurd hlexeme (by simp [LexRule.lexeme?])
    | token hraw hread hlexeme' =>
      rw [hlexeme'] at hlexeme
      obtain rfl := Option.some.inj hlexeme
      rw [ih, lexToEnd_token hread, hraw]
    | refused hraw happ hc hread => exact absurd hlexeme (by simp [LexRule.lexeme?])
  | refused hfirst =>
    cases LexRule.finds_of_first? hfirst with
    | token hraw hread hlexeme => exact absurd hlexeme (by simp [LexRule.lexeme?])
    | refused hraw happ hc hread =>
      obtain rfl := List.singleton_inj.1 hraw
      subst happ
      rw [lexToEnd_refused hc hread]

/-- Every text has a run, because the rule that applies takes something. -/
theorem lexes_lexToEnd (n : Nat) (t : Text) : Lexes n t (lexToEnd n t) := by
  by_cases hne : t = []
  · subst hne
    rw [lexToEnd, lexFrom]
    exact .finished n
  obtain ⟨rule, raw, rest, hfirst, hfinds⟩ := LexRule.exists_first? hne
  -- no rule takes the empty text, so less is left for the rest of the run
  have hshorter : rest.length < t.length := by
    obtain ⟨happ, hraw⟩ := hfinds.append
    have := List.length_pos_iff.2 hraw
    rw [happ, List.length_append]
    omega
  cases hfinds with
  | gap hgap hraw happ =>
    rw [happ, lexToEnd_gap hgap, ← happ]
    exact .blanks hfirst (lexes_lexToEnd _ rest)
  | token hraw hread hlexeme =>
    rw [lexToEnd_token hread, ← hraw]
    exact .token hfirst hlexeme (lexes_lexToEnd _ rest)
  | refused hraw happ hc hread =>
    rw [happ, lexToEnd_refused hc (happ ▸ hread), ← happ]
    exact .refused (hraw ▸ hfirst)
termination_by t.length

/-- **Every text has one run.** -/
theorem iff_eq_lexToEnd {n : Nat} {t : Text} {outcome : Except Unexpected (List ArgToken × Nat)} :
    Lexes n t outcome ↔ outcome = lexToEnd n t :=
  ⟨eq_lexToEnd, fun h => h ▸ lexes_lexToEnd n t⟩

end Lexes

/-! ## What the tokens cover -/

namespace ArgToken

/-- A token stands in a text where it says: there its source is, which for a key includes the equals
sign, and that is not empty. -/
structure StandsIn (t : Text) (token : ArgToken) : Prop where
  /-- It covers at least one character. -/
  start_lt_stop : token.start < token.stop
  /-- It ends in the text. -/
  stop_le : token.stop ≤ t.length
  /-- What it covers is its source. -/
  source_eq : (t.take token.stop).drop token.start = token.lexeme.source

/-- Some tokens cover a text. -/
structure Cover (t : Text) (tokens : List ArgToken) : Prop where
  /-- Each of them stands in it. -/
  standsIn : ∀ token ∈ tokens, token.StandsIn t
  /-- None begins before all those in front of it have ended. -/
  ordered : tokens.Pairwise fun a b => a.stop ≤ b.start
  /-- There is nothing but blanks before, between and behind them. -/
  isBlank : ∀ i c, t[i]? = some c → (∀ token ∈ tokens, ¬(token.start ≤ i ∧ i < token.stop)) →
    isBlank c = true

/-- A token is read from the text at its start, and the rest of the text is what stands behind its
end. -/
structure ReadsIn (t : Text) (token : ArgToken) : Prop where
  /-- It is the first token of the text from its start on. -/
  read?_eq : Lexeme.read? (t.drop token.start) = some (token.lexeme, t.drop token.stop)
  /-- It ends where its source does. -/
  stop_eq : token.stop = token.start + token.lexeme.source.length

/-- What is read from the text at its start stands there. -/
theorem ReadsIn.standsIn {t : Text} {token : ArgToken} (h : token.ReadsIn t) :
    token.StandsIn t := by
  obtain ⟨happ, hne⟩ := Lexeme.append_of_read? h.read?_eq
  have hpos := List.length_pos_iff.2 hne
  have hstop := h.stop_eq
  have hlength := congrArg List.length happ
  rw [List.length_append, List.length_drop, List.length_drop] at hlength
  refine ⟨by omega, by omega, ?_⟩
  rw [List.drop_take, happ, hstop, Nat.add_sub_cancel_left, List.take_left]

/-- What is read from the same text is the same token, wherever that text stands. -/
theorem ReadsIn.eq_of_drop_eq {t u : Text} {a b : ArgToken} (ha : a.ReadsIn t) (hb : b.ReadsIn u)
    (h : t.drop a.start = u.drop b.start) :
    a.lexeme = b.lexeme ∧ a.stop - a.start = b.stop - b.start := by
  have hlexeme : a.lexeme = b.lexeme := by
    have hread := ha.read?_eq
    rw [h, hb.read?_eq] at hread
    exact (Prod.mk.inj (Option.some.inj hread)).1.symm
  refine ⟨hlexeme, ?_⟩
  rw [ha.stop_eq, hb.stop_eq, hlexeme]
  omega

end ArgToken

section Behind

variable {before t : Text} {token : ArgToken} {ts : List ArgToken}

/-- **The first token behind a text**: it stands behind a gap, and the others are those behind all
of that. -/
theorem exists_of_lexFrom_behind (h : lexFrom before.length t = .ok (token :: ts)) :
    ∃ gap after, IsGap gap ∧ before ++ t = (before ++ gap) ++ (token.lexeme.source ++ after) ∧
      token.start = (before ++ gap).length ∧
      token.stop = ((before ++ gap) ++ token.lexeme.source).length ∧
      Lexeme.read? (token.lexeme.source ++ after) = some (token.lexeme, after) ∧
      lexFrom ((before ++ gap) ++ token.lexeme.source).length after = .ok ts := by
  obtain ⟨gap, front, after, hgap, rfl, hread, hstart, hstop, hafter⟩ := exists_of_lexFrom_cons h
  obtain ⟨rfl, -⟩ := Lexeme.append_of_read? hread
  have hstart : token.start = (before ++ gap).length := by rw [hstart, List.length_append]
  have hstop : token.stop = ((before ++ gap) ++ token.lexeme.source).length := by
    rw [hstop, hstart]
    exact List.length_append.symm
  exact ⟨gap, after, hgap, by rw [List.append_assoc], hstart, hstop, hread, hstop ▸ hafter⟩

/-- Every token behind a text is read from there. -/
theorem readsIn_of_lexFrom (h : lexFrom before.length t = .ok ts) (hmem : token ∈ ts) :
    token.ReadsIn (before ++ t) := by
  induction ts generalizing before t with
  | nil => exact absurd hmem List.not_mem_nil
  | cons first ts ih =>
    obtain ⟨gap, after, hgap, happ, hstart, hstop, hread, hafter⟩ := exists_of_lexFrom_behind h
    rw [happ]
    rcases List.mem_cons.1 hmem with rfl | hmem
    · refine ⟨?_, ?_⟩
      · rw [hstart, List.drop_left, hstop, ← List.append_assoc, List.drop_left, hread]
      · rw [hstop, hstart]
        exact List.length_append
    · rw [← List.append_assoc]
      exact ih hafter hmem

/-- No token behind a text begins before those in front of it have ended. -/
theorem pairwise_of_lexFrom (h : lexFrom before.length t = .ok ts) :
    ts.Pairwise fun a b => a.stop ≤ b.start := by
  induction ts generalizing before t with
  | nil => exact .nil
  | cons first ts ih =>
    obtain ⟨gap, after, hgap, happ, hstart, hstop, hread, hafter⟩ := exists_of_lexFrom_behind h
    refine .cons (fun token hmem => ?_) (ih hafter)
    rw [hstop]
    exact (mem_of_lexFrom hafter hmem).1

/-- What no token covers behind a text is blank. -/
theorem isBlank_of_lexFrom (h : lexFrom before.length t = .ok ts) {i : Nat} {c : Char}
    (hi : before.length ≤ i) (hc : (before ++ t)[i]? = some c)
    (hout : ∀ token ∈ ts, ¬(token.start ≤ i ∧ i < token.stop)) : isBlank c = true := by
  induction ts generalizing before t with
  | nil =>
    rw [List.getElem?_append_right hi] at hc
    exact isGap_of_lexFrom h c (List.mem_of_getElem? hc)
  | cons first ts ih =>
    obtain ⟨gap, after, hgap, happ, hstart, hstop, hread, hafter⟩ := exists_of_lexFrom_behind h
    rw [happ] at hc
    by_cases hfront : i < first.start
    · -- before the token there is the gap
      rw [List.getElem?_append_left (hstart ▸ hfront), List.getElem?_append_right hi] at hc
      exact hgap c (List.mem_of_getElem? hc)
    · -- not in the token, so behind it
      have hbehind : first.stop ≤ i := by
        have := hout first List.mem_cons_self
        omega
      rw [← List.append_assoc] at hc
      exact ih hafter (hstop ▸ hbehind) hc fun token hmem =>
        hout token (List.mem_cons_of_mem _ hmem)

/-- The character that is unexpected stands where that is said. -/
theorem getElem?_of_lexFrom_error {n : Nat} {e : Unexpected} (h : lexFrom n t = .error e) :
    n ≤ e.offset ∧ t[e.offset - n]? = some e.char := by
  fun_induction lexFrom n t with
  | case1 => cases h
  | case2 n c rest hc ih =>
    obtain ⟨hle, hchar⟩ := ih h
    refine ⟨by omega, ?_⟩
    rw [show e.offset - n = e.offset - (n + 1) + 1 by omega, List.getElem?_cons_succ, hchar]
  | case3 n c rest hc hread =>
    obtain rfl := Except.error.inj h
    simp
  | case4 n c rest hc lexeme after hread stop shorter ih =>
    obtain ⟨hle, hchar⟩ := ih (Except.map_eq_error.1 h)
    obtain ⟨happ, -⟩ := Lexeme.append_of_read? hread
    have hstop : stop = n + lexeme.source.length := rfl
    refine ⟨by omega, ?_⟩
    rw [happ, List.getElem?_append_right (by omega), ← hchar]
    congr 1
    omega

end Behind

/-! ## Whole parameter lists -/

/-- Every token of a list is read from it. -/
theorem readsIn_of_lex {t : Text} {token : ArgToken} {tokens : List ArgToken}
    (h : lex t = .ok tokens) (hmem : token ∈ tokens) : token.ReadsIn t := by
  have hlex : lexFrom ([] : Text).length t = .ok tokens := h
  exact readsIn_of_lexFrom hlex hmem

/-- The tokens of a list cover it. -/
theorem cover_of_lex {t : Text} {tokens : List ArgToken} (h : lex t = .ok tokens) :
    ArgToken.Cover t tokens := by
  have hlex : lexFrom ([] : Text).length t = .ok tokens := h
  refine ⟨fun token hmem => (readsIn_of_lex h hmem).standsIn, pairwise_of_lexFrom hlex, ?_⟩
  intro i c hc hout
  exact isBlank_of_lexFrom hlex (Nat.zero_le i) hc hout

/-- **The tokens of a parameter list cover it.**  There is one run of the rules, and it comes to
what `lex` answers: to an unexpected character, which stands where that is said, or to tokens that
cover the list, and then it stops at its end.  A token is a matter of the list from its start on:
where another list goes on in the same way at one of its tokens, that is the same token. -/
theorem lex_covers (t : Text) :
    (∀ outcome, Lexes 0 t outcome ↔
      outcome = (lex t).map fun tokens => (tokens, t.length)) ∧
    (∀ e, lex t = .error e → t[e.offset]? = some e.char) ∧
    ∀ tokens, lex t = .ok tokens →
      ArgToken.Cover t tokens ∧
      ∀ u others, lex u = .ok others → ∀ a ∈ tokens, ∀ b ∈ others,
        t.drop a.start = u.drop b.start →
          a.lexeme = b.lexeme ∧ a.stop - a.start = b.stop - b.start := by
  refine ⟨fun outcome => ?_, fun e he => ?_, fun tokens htokens => ⟨cover_of_lex htokens, ?_⟩⟩
  · rw [Lexes.iff_eq_lexToEnd, lexToEnd, Nat.zero_add]
    rfl
  · exact (getElem?_of_lexFrom_error he).2
  · intro u others hothers a ha b hb hdrop
    exact (readsIn_of_lex htokens ha).eq_of_drop_eq (readsIn_of_lex hothers hb) hdrop

/-- A number that stands in two lists, in each before the same text, and a list with an equals sign
that belongs to no key. -/
theorem lex_covers_number :
    let t : Text := " k= 'a b'\u00a0-1)"
    let u : Text := "(x -1)"
    let number (start : Nat) : ArgToken := ⟨.number "-1".toList, start, start + 2⟩
    (∃ tokens others, lex t = .ok tokens ∧ lex u = .ok others ∧ ArgToken.Cover t tokens ∧
      tokens.map (fun a => (a.start, a.stop)) = [(1, 3), (4, 9), (10, 12), (12, 13)] ∧
      number 10 ∈ tokens ∧ number 3 ∈ others ∧ t.drop 10 = u.drop 3 ∧
      (number 10).lexeme = (number 3).lexeme) ∧
    lex "a =b".toList = .error ⟨'=', 2⟩ ∧ "a =b".toList[2]? = some '=' := by
  intro t u number
  refine ⟨?_, ?_⟩
  · have ht : (lex t).toOption = some [⟨.key ['k'], 1, 3⟩, ⟨.quoted "'a b'".toList, 4, 9⟩,
        number 10, ⟨.closing, 12, 13⟩] := by decide +kernel
    have hu : (lex u).toOption =
        some [⟨.opening, 0, 1⟩, ⟨.word ['x'], 1, 2⟩, number 3, ⟨.closing, 5, 6⟩] := by
      decide +kernel
    rw [Except.toOption_eq_some] at ht hu
    obtain ⟨hcover, halike⟩ := (lex_covers t).2.2 _ ht
    have hdrop : t.drop 10 = u.drop 3 := by decide
    exact ⟨_, _, ht, hu, hcover, rfl, by simp, by simp, hdrop,
      (halike u _ hu (number 10) (by simp) (number 3) (by simp) hdrop).1⟩
  · have hword : Lexeme.read? "a =b".toList = some (.word ['a'], " =b".toList) := by
      decide +kernel
    have hequals : lexFrom 1 " =b".toList = .error ⟨'=', 2⟩ :=
      (lexFrom_blank (by decide) 1 ['=', 'b']).trans
        (lexFrom_refused (by decide) (by decide +kernel) 2)
    have he : lex "a =b".toList = .error ⟨'=', 2⟩ := by
      rw [lex, lexFrom_token hword]
      exact Except.map_eq_error.2 hequals
    exact ⟨he, (lex_covers "a =b".toList).2.1 _ he⟩

end Stencil
