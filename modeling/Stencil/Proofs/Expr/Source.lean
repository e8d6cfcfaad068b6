import Stencil.Proofs.Expr.Derivation
import Stencil.Proofs.Expr.Lexing
import Stencil.Proofs.Rendering.Activity

/-!
# The sources of parameters

Every expression keeps its source.  Here it is shown that what is kept is the stretch of the tag in
which the expression was written, and that it stands for the expression (`parameters_keep_source`):

* the sources of the parameters follow each other in the text of the tag, with nothing but blanks
  and keys between them (`LaidOut`);
* the source of a call in parentheses goes from an opening parenthesis to the closing one that
  belongs to it, and what is between them is read as the very same call (`Call.IsEnclosed`);
* a helper that asks for the source of its parameters is given just that, whatever the data is
  (`Call.HandsOver`).

The second point is a matter of derivations.  The tokens between the parentheses are also the tokens
of the stretch between them when it stands alone, save that they stand further to the front
(`lexFrom_closing`, `lexFrom_back`).  So the derivation of the parameters, moved to the front
(`Argument.back`), is a derivation for the stretch, and it stands for the same expressions because
all the slices that it takes are inside (`Argument.expr_back`).
-/

set_option autoImplicit false

namespace Stencil

/-! ## What is written where -/

/-- The sources of parameters follow each other in the text, the named ones last, each of them with
its key in front of it.  Between them there are only gaps. -/
inductive LaidOut : List Expr → List (Text × Expr) → Text → Prop
  /-- No parameters. -/
  | nil {gap : Text} (hgap : IsGap gap) : LaidOut [] [] gap
  /-- A positional parameter. -/
  | param {gap rest : Text} {e : Expr} {params : List Expr} {named : List (Text × Expr)}
      (hgap : IsGap gap) (h : LaidOut params named rest) :
      LaidOut (e :: params) named (gap ++ (e.source ++ rest))
  /-- A named parameter. -/
  | named {gap gap' rest key : Text} {e : Expr} {named : List (Text × Expr)} (hgap : IsGap gap)
      (hgap' : IsGap gap') (h : LaidOut [] named rest) :
      LaidOut [] ((key, e) :: named) (gap ++ (key ++ '=' :: (gap' ++ (e.source ++ rest))))

/-- Each parenthesis among the tokens has its counterpart among them. -/
inductive Balanced : List ArgToken → Prop
  /-- There are no tokens. -/
  | nil : Balanced []
  /-- The first token is no parenthesis. -/
  | other {t : ArgToken} {ts : List ArgToken} (hopening : t.lexeme ≠ .opening)
      (hclosing : t.lexeme ≠ .closing) (h : Balanced ts) : Balanced (t :: ts)
  /-- The first token is a parenthesis. -/
  | group {opening closing : ArgToken} {ts us : List ArgToken}
      (hopening : opening.lexeme = .opening) (hclosing : closing.lexeme = .closing)
      (hinner : Balanced ts) (hrest : Balanced us) :
      Balanced (opening :: (ts ++ closing :: us))

/-- A call in parentheses goes from a parenthesis to its counterpart, and what is between them is
read as the call. -/
structure Call.IsEnclosed (source inner : Text) (c : Call) : Prop where
  /-- The parentheses are the first and the last character. -/
  eq : source = '(' :: (inner ++ [')'])
  /-- They belong together. -/
  balanced : ∃ ts, lex inner = .ok ts ∧ Balanced ts
  /-- The call is between them. -/
  parse : ∀ position, Call.parse position inner = .ok c

/-- An expression that is a call is enclosed in parentheses. -/
def Expr.IsEnclosed : Expr → Prop
  | .call source head params named => ∃ inner, Call.IsEnclosed source inner ⟨head, params, named⟩
  | .path _ | .literal _ _ => True

/-- An expression is one of the parameters, or a part of one at any depth. -/
inductive Expr.OccursIn : Expr → List Expr → List (Text × Expr) → Prop
  /-- It is a positional parameter. -/
  | param {e : Expr} {params : List Expr} {named : List (Text × Expr)} (h : e ∈ params) :
      OccursIn e params named
  /-- It is a named parameter. -/
  | named {e : Expr} {params : List Expr} {named : List (Text × Expr)} {key : Text}
      (h : (key, e) ∈ named) : OccursIn e params named
  /-- It is a part of a call in parentheses. -/
  | nested {e : Expr} {params params' : List Expr} {named named' : List (Text × Expr)}
      {source : Text} {head : Path} (h : OccursIn (.call source head params' named') params named)
      (hpart : OccursIn e params' named') : OccursIn e params named

/-- Whether a text begins with a quote. -/
def Text.BeginsQuoted (t : Text) : Prop :=
  t.head? = some '"' ∨ t.head? = some '\''

instance (t : Text) : Decidable t.BeginsQuoted :=
  inferInstanceAs (Decidable (_ ∨ _))

/-- What a parameter is written as: the text between the quotes if it is in quotes, and its source
otherwise. -/
def Expr.written (e : Expr) : Text :=
  if e.source.BeginsQuoted then unquote e.source else e.source

/-- Where helpers are given the source of their parameters, the helper that is called is given what
is written, in any frame. -/
def Call.HandsOver (c : Call) : Prop :=
  ∀ (r : Rendering) (partials : PartialRenderer) (f : Frame) (position : Position)
    (branches : Option Branches), r.stringParams = true →
      r.callAt partials f c position branches = r.helperFor c.head position >>= fun helper =>
        r.call partials ⟨c.head.source, position, f, branches⟩ helper
          (c.params.map fun e => .text e.written)
          (Table.ofList (c.named.map fun b => (b.1, .text b.2.written)))

/-- What is kept of the source of a call is what was written. -/
structure Call.KeepsSource (source : Text) (c : Call) : Prop where
  /-- The parameters are laid out behind the name. -/
  laidOut : ∃ gap rest, IsGap gap ∧ source = gap ++ (c.head.source ++ rest) ∧
    LaidOut c.params c.named rest
  /-- Helpers are given what is written. -/
  handsOver : c.HandsOver

/-- What is kept of the source of a partial tag is what was written. -/
def PartialCall.KeepsSource (source : Text) (c : PartialCall) : Prop :=
  ∃ gap rest, IsGap gap ∧ source = gap ++ (c.name.source ++ rest) ∧
    LaidOut c.context.toList c.named rest

/-- What is kept of the source of a call in parentheses is what was written. -/
def Expr.KeepsSource : Expr → Prop
  | .call source head params named =>
    ∃ inner, Call.IsEnclosed source inner ⟨head, params, named⟩ ∧
      Call.KeepsSource inner ⟨head, params, named⟩
  | .path _ | .literal _ _ => True

/-! ## Derivations further to the front -/

/-- A stretch that stands `k` characters further to the front. -/
def Span.back (k : Nat) (s : Span) : Span :=
  ⟨s.start - k, s.stop - k⟩

/-- A name that stands `k` characters further to the front. -/
def NameWord.back (k : Nat) (n : NameWord) : NameWord :=
  { n with span := n.span.back k }

/-- A key that stands `k` characters further to the front. -/
def KeyWord.back (k : Nat) (w : KeyWord) : KeyWord :=
  { w with span := w.span.back k }

namespace Argument

mutual

/-- A value that stands `k` characters further to the front. -/
def back (k : Nat) : Argument → Argument
  | .quoted raw span => .quoted raw (span.back k)
  | .number raw span => .number raw (span.back k)
  | .word raw span => .word raw (span.back k)
  | .group opening name params pairs closing =>
    .group (opening.back k) (name.back k) (backAll k params) (backPairs k pairs) (closing.back k)

/-- Values that stand `k` characters further to the front. -/
def backAll (k : Nat) : List Argument → List Argument
  | [] => []
  | a :: as => a.back k :: backAll k as

/-- Pairs that stand `k` characters further to the front. -/
def backPairs (k : Nat) : List (KeyWord × Argument) → List (KeyWord × Argument)
  | [] => []
  | (key, a) :: pairs => (key.back k, a.back k) :: backPairs k pairs

end

variable {k : Nat}

mutual

theorem yield_back : ∀ a : Argument, (a.back k).yield = a.yield.map (ArgToken.back k)
  | .quoted raw span => rfl
  | .number raw span => rfl
  | .word raw span => rfl
  | .group opening name params pairs closing => by
    rw [back, yield, yield, yieldAll_back, yieldPairs_back]
    simp only [List.map_cons, List.map_append, List.map_nil]
    rfl

theorem yieldAll_back : ∀ as : List Argument,
    yieldAll (backAll k as) = (yieldAll as).map (ArgToken.back k)
  | [] => rfl
  | a :: as => by rw [backAll, yieldAll, yieldAll, yield_back, yieldAll_back, List.map_append]

theorem yieldPairs_back : ∀ pairs : List (KeyWord × Argument),
    yieldPairs (backPairs k pairs) = (yieldPairs pairs).map (ArgToken.back k)
  | [] => rfl
  | (key, a) :: pairs => by
    rw [backPairs, yieldPairs, yieldPairs, yield_back, yieldPairs_back, List.map_cons,
      List.map_append]
    rfl

end

/-- A slice of a stretch is a slice of the text that holds the stretch. -/
theorem slice_back {before inner rest : Text} {start stop : Nat} (hstart : before.length ≤ start)
    (hstop : stop ≤ before.length + inner.length) :
    ArgReader.slice inner (start - before.length) (stop - before.length) =
      ArgReader.slice (before ++ (inner ++ rest)) start stop := by
  have hcount : stop - before.length - (start - before.length) = stop - start := by omega
  have hinside : stop - start ≤ (inner.drop (start - before.length)).length := by
    rw [List.length_drop]
    omega
  rw [ArgReader.slice, ArgReader.slice, hcount, List.drop_append, List.drop_eq_nil_of_le hstart,
    List.nil_append, List.drop_append, List.take_append_of_le_length hinside]

/-- The tokens stand in a stretch of the source. -/
def Inside (before inner : Text) (ts : List ArgToken) : Prop :=
  ∀ t ∈ ts, before.length ≤ t.start ∧ t.stop ≤ before.length + inner.length

section

variable {before inner rest : Text}

theorem Inside.left {ts us : List ArgToken} (h : Inside before inner (ts ++ us)) :
    Inside before inner ts :=
  fun t ht => h t (List.mem_append_left us ht)

theorem Inside.right {ts us : List ArgToken} (h : Inside before inner (ts ++ us)) :
    Inside before inner us :=
  fun t ht => h t (List.mem_append_right ts ht)

theorem Inside.tail {t : ArgToken} {ts : List ArgToken} (h : Inside before inner (t :: ts)) :
    Inside before inner ts :=
  fun u hu => h u (List.mem_cons_of_mem t hu)

mutual

/-- **A value inside a stretch stands for the same there** as it does in the whole source. -/
theorem expr_back : ∀ {a : Argument}, Inside before inner a.yield →
    (a.back before.length).expr inner = a.expr (before ++ (inner ++ rest))
  | .quoted raw span, _ => rfl
  | .number raw span, _ => rfl
  | .word raw span, _ => rfl
  | .group opening name params pairs closing, h => by
    rw [yield] at h
    have hparts := h.tail.tail
    have hopening : before.length ≤ opening.start := (h _ List.mem_cons_self).1
    have hclosing : closing.stop ≤ before.length + inner.length :=
      (hparts.right.right _ (List.mem_singleton_self _)).2
    rw [back, expr, expr, exprs_back hparts.left, named_back hparts.right.left]
    simp only [Span.back, NameWord.back]
    rw [slice_back hopening hclosing]

theorem exprs_back : ∀ {as : List Argument}, Inside before inner (yieldAll as) →
    exprs inner (backAll before.length as) = exprs (before ++ (inner ++ rest)) as
  | [], _ => rfl
  | a :: as, h => by rw [backAll, exprs, exprs, expr_back h.left, exprs_back h.right]

theorem named_back : ∀ {pairs : List (KeyWord × Argument)},
    Inside before inner (yieldPairs pairs) →
      named inner (backPairs before.length pairs) = named (before ++ (inner ++ rest)) pairs
  | [], _ => rfl
  | (key, a) :: pairs, h => by
    rw [yieldPairs] at h
    rw [backPairs, named, named, expr_back h.tail.left, named_back h.tail.right]
    rfl

end

end

end Argument

/-- A call that stands `k` characters further to the front. -/
def CallTree.back (k : Nat) (t : CallTree) : CallTree :=
  ⟨t.name.back k, Argument.backAll k t.params, Argument.backPairs k t.pairs⟩

theorem CallTree.yield_back (k : Nat) (t : CallTree) :
    (t.back k).yield = t.yield.map (ArgToken.back k) := by
  rw [yield, yield, List.map_cons, List.map_append, ← Argument.yieldAll_back,
    ← Argument.yieldPairs_back]
  rfl

/-- A stretch that has the tokens of a call has those of the call moved to the front. -/
theorem CallTree.lex_stretch {k : Nat} {inner : Text} {t : CallTree}
    (h : lexFrom k inner = .ok t.yield) : lex inner = .ok (t.back k).yield := by
  rw [yield_back]
  exact lexFrom_back (by rwa [Nat.zero_add])

/-- **A call is read from a stretch** that has its tokens, when it stands alone. -/
theorem CallTree.parse_stretch {before inner rest : Text} {t : CallTree} {c : Call}
    (hlex : lexFrom before.length inner = .ok t.yield)
    (h : t.call (before ++ (inner ++ rest)) = .ok c) (position : Position) :
    Call.parse position inner = .ok c := by
  have hinside : Argument.Inside before inner t.yield := fun token htoken =>
    have hplace := mem_of_lexFrom hlex htoken
    ⟨hplace.1, hplace.2.2⟩
  obtain ⟨hname, hparams, hpairs⟩ := call_eq_ok.1 h
  refine parse_of_lex (lex_stretch hlex) (call_eq_ok.2 ⟨hname, ?_, ?_⟩) position
  · exact (Argument.exprs_back hinside.tail.left).trans hparams
  · exact (Argument.named_back hinside.tail.right).trans hpairs

/-! ## Parentheses -/

namespace Argument

mutual

theorem balanced_yield : ∀ {a : Argument} {ts : List ArgToken}, Balanced ts →
    Balanced (a.yield ++ ts)
  | .quoted raw span, ts, h => .other nofun nofun h
  | .number raw span, ts, h => .other nofun nofun h
  | .word raw span, ts, h => .other nofun nofun h
  | .group opening name params pairs closing, ts, h => by
    have hinner : Balanced (name.token :: (yieldAll params ++ (yieldPairs pairs ++ []))) :=
      .other nofun nofun (balanced_yieldAll (balanced_yieldPairs .nil))
    have hgroup : Balanced (opening.token .opening ::
        (name.token :: (yieldAll params ++ (yieldPairs pairs ++ [])) ++
          closing.token .closing :: ts)) := .group rfl rfl hinner h
    rw [yield]
    simpa using hgroup

theorem balanced_yieldAll : ∀ {as : List Argument} {ts : List ArgToken}, Balanced ts →
    Balanced (yieldAll as ++ ts)
  | [], ts, h => h
  | a :: as, ts, h => by
    rw [yieldAll, List.append_assoc]
    exact balanced_yield (balanced_yieldAll h)

theorem balanced_yieldPairs : ∀ {pairs : List (KeyWord × Argument)} {ts : List ArgToken},
    Balanced ts → Balanced (yieldPairs pairs ++ ts)
  | [], ts, h => h
  | (key, a) :: pairs, ts, h => by
    rw [yieldPairs, List.cons_append, List.append_assoc]
    exact .other nofun nofun (balanced_yield (balanced_yieldPairs h))

end

end Argument

theorem CallTree.balanced_yield (t : CallTree) : Balanced t.yield := by
  have hparts : Balanced (Argument.yieldAll t.params ++ (Argument.yieldPairs t.pairs ++ [])) :=
    Argument.balanced_yieldAll (Argument.balanced_yieldPairs .nil)
  rw [List.append_nil] at hparts
  exact .other nofun nofun hparts

/-! ## Expressions where they are written -/

/-- Behind `before`, the source of an expression stands at the front of a text, with a gap in front
of it and the tokens `ts` behind it. -/
structure Expr.StandsBehind (before : Text) (e : Expr) (t : Text) (ts : List ArgToken)
    (gap rest : Text) : Prop where
  /-- There is nothing but a gap in front of it. -/
  isGap : IsGap gap
  /-- It stands there. -/
  eq : t = gap ++ (e.source ++ rest)
  /-- The rest has the other tokens. -/
  lexFrom_rest : lexFrom (before ++ gap ++ e.source).length rest = .ok ts

theorem Expr.StandsBehind.append_eq {before t gap rest : Text} {e : Expr} {ts : List ArgToken}
    (h : Expr.StandsBehind before e t ts gap rest) :
    before ++ t = (before ++ gap ++ e.source) ++ rest := by
  simp only [h.eq, List.append_assoc]

/-- The source of an expression stands for it. -/
structure Expr.IsFaithful (e : Expr) : Prop where
  /-- A call is enclosed in parentheses. -/
  isEnclosed : e.IsEnclosed
  /-- A helper that asks for the source is given what is written. -/
  asWritten : e.asWritten = .text e.written

/-- Whether a token is a text in quotes. -/
def Lexeme.isQuoted : Lexeme → Bool
  | .quoted _ => true
  | .opening | .closing | .number _ | .key _ | .word _ => false

/-- A text begins with a quote exactly if its first token is a text in quotes. -/
theorem Lexeme.beginsQuoted_iff {t rest : Text} {lexeme : Lexeme}
    (h : read? t = some (lexeme, rest)) : t.BeginsQuoted ↔ lexeme.isQuoted = true := by
  obtain _ | ⟨c, t⟩ := t
  · exact absurd h (by simp [read?])
  have hiff : Text.BeginsQuoted (c :: t) ↔ c = '"' ∨ c = '\'' := by
    rw [Text.BeginsQuoted, List.head?_cons, Option.some.injEq, Option.some.injEq]
  rw [hiff]
  constructor
  · intro hquote
    have hquoted := readQuoted?_of_read? h hquote
    obtain ⟨r, hr⟩ := Option.ne_none_iff_exists'.1 hquoted
    rw [read?_cons (by rcases hquote with rfl | rfl <;> decide)
      (by rcases hquote with rfl | rfl <;> decide), hr] at h
    rw [← (Prod.mk.inj (Option.some.inj h)).1]
    rfl
  · intro hlexeme
    by_contra hquote
    have hquoted : readQuoted? (c :: t) = none := by rw [readQuoted?, if_neg hquote]
    by_cases hopen : c = '('
    · subst hopen
      obtain ⟨rfl, -⟩ := Prod.mk.inj (Option.some.inj h)
      exact absurd hlexeme (by decide)
    by_cases hclose : c = ')'
    · subst hclose
      obtain ⟨rfl, -⟩ := Prod.mk.inj (Option.some.inj h)
      exact absurd hlexeme (by decide)
    -- the classes behind the texts in quotes have other tokens
    have hother : ∀ {r : Option (Text × Text)} {f : Text → Lexeme},
        (∀ raw, (f raw).isQuoted = false) →
          (r.map fun r => (f r.1, r.2)) ≠ some (lexeme, rest) := by
      intro r f hf hr
      obtain ⟨s, -, hs⟩ := Option.map_eq_some_iff.1 hr
      rw [← (Prod.mk.inj hs).1, hf] at hlexeme
      exact absurd hlexeme (by decide)
    rw [read?_cons hopen hclose, hquoted] at h
    rcases Option.or_eq_some_iff.1 h with h | ⟨-, h⟩
    · exact absurd h (by simp)
    rcases Option.or_eq_some_iff.1 h with h | ⟨-, h⟩
    · exact hother (fun _ => rfl) h
    rcases Option.or_eq_some_iff.1 h with h | ⟨-, h⟩
    · exact hother (fun _ => rfl) h
    · exact hother (fun _ => rfl) h

/-- The source of a token that is an expression stands where the token does. -/
theorem Expr.standsBehind_of_token {before t : Text} {e : Expr} {token : ArgToken}
    {ts : List ArgToken} (h : lexFrom before.length t = .ok (token :: ts))
    (hsource : token.lexeme.source = e.source) :
    (∃ gap rest, e.StandsBehind before t ts gap rest) ∧
      (e.source.BeginsQuoted ↔ token.lexeme.isQuoted = true) := by
  obtain ⟨gap, front, after, hgap, rfl, hread, hstart, hstop, hafter⟩ := exists_of_lexFrom_cons h
  obtain ⟨rfl, hne⟩ := Lexeme.append_of_read? hread
  have hquoted := Lexeme.beginsQuoted_iff hread
  rw [hstop, hstart, hsource, ← List.length_append, ← List.length_append] at hafter
  rw [hsource] at hne hquoted ⊢
  refine ⟨⟨gap, after, hgap, rfl, hafter⟩, ?_⟩
  rwa [Text.BeginsQuoted, List.head?_append_of_ne_nil _ hne] at hquoted

theorem Path.source_of_parse {raw : Text} {p : Path} (h : Path.parse raw = .ok p) :
    p.source = raw := by
  simp only [Path.parse] at h
  split at h
  · cases h
  · split at h
    · split at h
      · cases h
      · obtain rfl := Except.ok.inj h
        rfl
    · obtain rfl := Except.ok.inj h
      rfl

/-- No keyword stands for a text. -/
theorem Literal.ofKeyword?_ne_text {raw t : Text} : Literal.ofKeyword? raw ≠ some (.text t) := by
  unfold Literal.ofKeyword?
  split_ifs <;> exact nofun

/-- No number stands for a text. -/
theorem Literal.ofNumber_ne_text {raw t : Text} : Literal.ofNumber raw ≠ .text t := by
  unfold Literal.ofNumber
  split
  · split_ifs <;> exact nofun
  · exact nofun

/-- What is not in quotes is handed over as it stands. -/
theorem Expr.IsFaithful.of_not_beginsQuoted {e : Expr} (henclosed : e.IsEnclosed)
    (hquoted : ¬e.source.BeginsQuoted) (hwritten : e.asWritten = .text e.source) :
    e.IsFaithful := by
  refine ⟨henclosed, ?_⟩
  rw [hwritten, Expr.written, if_neg hquoted]

theorem Expr.asWritten_literal {source : Text} {value : Literal} (h : ∀ t, value ≠ .text t) :
    (Expr.literal source value).asWritten = .text source := by
  cases value with
  | text t => exact absurd rfl (h t)
  | undefined | null | bool b | int i | float x => rfl

namespace Argument

/-- A call in parentheses stands where its tokens do, and it is enclosed in parentheses. -/
theorem standsBehind_group {before t : Text} {opening closing : Span} {name : NameWord}
    {params : List Argument} {pairs : List (KeyWord × Argument)} {e : Expr} {ts : List ArgToken}
    (h : (group opening name params pairs closing).expr (before ++ t) = .ok e)
    (hlex : lexFrom before.length t =
      .ok ((group opening name params pairs closing).yield ++ ts)) :
    (∃ gap rest, e.StandsBehind before t ts gap rest) ∧ e.IsFaithful := by
  obtain ⟨path, es, bs, hname, hparams, hpairs, rfl⟩ := expr_group_eq_ok.1 h
  let tree : CallTree := ⟨name, params, pairs⟩
  have hlex : lexFrom before.length t =
      .ok (opening.token .opening :: (tree.yield ++ closing.token .closing :: ts)) := by
    rw [hlex, yield]
    simp [tree, CallTree.yield]
  obtain ⟨gap, inner, rest, hgap, rfl, hstart, hstop, hinner, hrest⟩ :=
    lexFrom_enclosed rfl rfl hlex
  let outside := before ++ gap
  have hstart : opening.start = outside.length := hstart.trans List.length_append.symm
  have hstop : closing.stop = (outside ++ '(' :: (inner ++ [')'])).length := by
    rw [List.length_append, ← hstart, List.length_cons, List.length_append, List.length_singleton]
    exact hstop
  have hsource : before ++ (gap ++ (('(' :: (inner ++ [')'])) ++ rest)) =
      (outside ++ ['(']) ++ (inner ++ ')' :: rest) := by
    simp [outside]
  -- the slice that the derivation takes is the enclosed text with its parentheses
  have hslice : ArgReader.slice (before ++ (gap ++ (('(' :: (inner ++ [')'])) ++ rest)))
      opening.start closing.stop = '(' :: (inner ++ [')']) := by
    rw [hstart, hstop, ← List.append_assoc]
    exact ArgReader.slice_append _ _ _
  have hinner : lexFrom (outside ++ ['(']).length inner = .ok tree.yield := by
    rw [List.length_append, ← hstart]
    exact hinner
  have hcall : tree.call ((outside ++ ['(']) ++ (inner ++ ')' :: rest)) = .ok ⟨path, es, bs⟩ := by
    rw [← hsource]
    exact CallTree.call_eq_ok.2 ⟨hname, hparams, hpairs⟩
  rw [hslice]
  refine ⟨⟨gap, rest, hgap, rfl, ?_⟩, ⟨inner, rfl, ?_, ?_⟩, ?_⟩
  · rw [Expr.source, ← hstop]
    exact hrest
  · exact ⟨_, CallTree.lex_stretch hinner, CallTree.balanced_yield _⟩
  · exact CallTree.parse_stretch hinner hcall
  · rfl

/-- **A value stands where its tokens do**, and its source stands for it. -/
theorem standsBehind {before t : Text} {a : Argument} {e : Expr} {ts : List ArgToken}
    (h : a.expr (before ++ t) = .ok e) (hlex : lexFrom before.length t = .ok (a.yield ++ ts)) :
    (∃ gap rest, e.StandsBehind before t ts gap rest) ∧ e.IsFaithful := by
  cases a with
  | quoted raw span =>
    obtain rfl := Except.ok.inj h
    obtain ⟨hstands, hquoted⟩ := Expr.standsBehind_of_token (e := .literal raw _) hlex rfl
    refine ⟨hstands, trivial, ?_⟩
    rw [Expr.written, if_pos (hquoted.2 rfl)]
    rfl
  | number raw span =>
    obtain rfl := Except.ok.inj h
    obtain ⟨hstands, hquoted⟩ := Expr.standsBehind_of_token (e := .literal raw _) hlex rfl
    exact ⟨hstands, .of_not_beginsQuoted trivial (mt hquoted.1 Bool.false_ne_true)
      (Expr.asWritten_literal fun t => Literal.ofNumber_ne_text)⟩
  | word raw span =>
    rw [expr] at h
    cases hkeyword : Literal.ofKeyword? raw with
    | some value =>
      rw [hkeyword] at h
      obtain rfl := Except.ok.inj h
      obtain ⟨hstands, hquoted⟩ := Expr.standsBehind_of_token (e := .literal raw _) hlex rfl
      have hvalue : ∀ t, value ≠ .text t := fun t ht =>
        Literal.ofKeyword?_ne_text (hkeyword.trans (congrArg some ht))
      exact ⟨hstands, .of_not_beginsQuoted trivial (mt hquoted.1 Bool.false_ne_true)
        (Expr.asWritten_literal hvalue)⟩
    | none =>
      rw [hkeyword] at h
      obtain ⟨p, hp, rfl⟩ := Except.map_eq_ok.1 h
      have hsource : raw = (Expr.path p).source := (Path.source_of_parse hp).symm
      obtain ⟨hstands, hquoted⟩ := Expr.standsBehind_of_token hlex hsource
      exact ⟨hstands, .of_not_beginsQuoted trivial (mt hquoted.1 Bool.false_ne_true) rfl⟩
  | group opening name params pairs closing => exact standsBehind_group h hlex

/-- The name of a partial stands where its tokens do, and it is enclosed if it is a call. -/
theorem standsBehind_partialName {before t : Text} {a : Argument} {e : Expr} {ts : List ArgToken}
    (h : a.partialName (before ++ t) = .ok e)
    (hlex : lexFrom before.length t = .ok (a.yield ++ ts)) :
    (∃ gap rest, e.StandsBehind before t ts gap rest) ∧ e.IsEnclosed := by
  cases a with
  | quoted raw span | number raw span | word raw span =>
    obtain rfl := Except.ok.inj h
    exact ⟨(Expr.standsBehind_of_token (e := .literal raw _) hlex rfl).1, trivial⟩
  | group opening name params pairs closing =>
    obtain ⟨hstands, hfaithful⟩ := standsBehind_group h hlex
    exact ⟨hstands, hfaithful.isEnclosed⟩

theorem laidOut_named {before t : Text} {pairs : List (KeyWord × Argument)}
    {bs : List (Text × Expr)} (h : named (before ++ t) pairs = .ok bs)
    (hlex : lexFrom before.length t = .ok (yieldPairs pairs)) :
    LaidOut [] bs t ∧ ∀ b ∈ bs, b.2.IsFaithful := by
  induction pairs generalizing before t bs with
  | nil =>
    obtain rfl := Except.ok.inj h
    exact ⟨.nil (isGap_of_lexFrom hlex), nofun⟩
  | cons pair pairs ih =>
    obtain ⟨key, a⟩ := pair
    rw [named] at h
    obtain ⟨e, he, h⟩ := Except.bind_eq_ok.1 h
    obtain ⟨bs, hbs, rfl⟩ := Except.map_eq_ok.1 h
    rw [yieldPairs] at hlex
    obtain ⟨gap, front, after, hgap, rfl, hread, hstart, hstop, hafter⟩ :=
      exists_of_lexFrom_cons hlex
    obtain ⟨rfl, -⟩ := Lexeme.append_of_read? hread
    let past := before ++ (gap ++ key.token.lexeme.source)
    have hsource : before ++ (gap ++ (key.token.lexeme.source ++ after)) = past ++ after := by
      simp only [past, List.append_assoc]
    have hpast : key.token.stop = past.length := by
      rw [hstop, hstart, List.length_append, List.length_append, Nat.add_assoc]
    rw [hsource] at he hbs
    rw [hpast] at hafter
    obtain ⟨⟨gap', rest, hstands⟩, hfaithful⟩ := standsBehind he hafter
    rw [hstands.append_eq] at hbs
    obtain ⟨hlaid, hall⟩ := ih hbs hstands.lexFrom_rest
    refine ⟨?_, List.forall_mem_cons.2 ⟨hfaithful, hall⟩⟩
    have hkey := @LaidOut.named gap gap' rest key.name e bs hgap hstands.isGap hlaid
    rw [hstands.eq]
    simpa [KeyWord.token, Span.token, Lexeme.source] using hkey

/-- **The parameters of a tag are laid out in its text**, and their sources stand for them. -/
theorem laidOut {before t : Text} {params : List Argument} {pairs : List (KeyWord × Argument)}
    {es : List Expr} {bs : List (Text × Expr)} (hparams : exprs (before ++ t) params = .ok es)
    (hpairs : named (before ++ t) pairs = .ok bs)
    (hlex : lexFrom before.length t = .ok (yieldAll params ++ yieldPairs pairs)) :
    LaidOut es bs t ∧ (∀ e ∈ es, e.IsFaithful) ∧ ∀ b ∈ bs, b.2.IsFaithful := by
  induction params generalizing before t es with
  | nil =>
    obtain rfl := Except.ok.inj hparams
    obtain ⟨hlaid, hall⟩ := laidOut_named hpairs hlex
    exact ⟨hlaid, nofun, hall⟩
  | cons a params ih =>
    rw [exprs] at hparams
    obtain ⟨e, he, h⟩ := Except.bind_eq_ok.1 hparams
    obtain ⟨es, hes, rfl⟩ := Except.map_eq_ok.1 h
    rw [yieldAll, List.append_assoc] at hlex
    obtain ⟨⟨gap, rest, hstands⟩, hfaithful⟩ := standsBehind he hlex
    rw [hstands.append_eq] at hes hpairs
    obtain ⟨hlaid, hall, hnamed⟩ := ih hes hpairs hstands.lexFrom_rest
    rw [hstands.eq]
    exact ⟨.param hstands.isGap hlaid, List.forall_mem_cons.2 ⟨hfaithful, hall⟩, hnamed⟩

end Argument

/-! ## Whole tags -/

/-- Helpers are given what is written if it is what the parameters are written as. -/
theorem Call.handsOver_of_isFaithful {c : Call} (hparams : ∀ e ∈ c.params, e.IsFaithful)
    (hnamed : ∀ b ∈ c.named, b.2.IsFaithful) : c.HandsOver := by
  intro r partials f position branches hsource
  have hpositional : c.params.map Expr.asWritten = c.params.map fun e => .text e.written :=
    List.map_congr_left fun e he => (hparams e he).asWritten
  have hnamed : (c.named.map fun b => (b.1, b.2.asWritten)) =
      c.named.map fun b => (b.1, .text b.2.written) :=
    List.map_congr_left fun b hb => congrArg (Prod.mk b.1) (hnamed b hb).asWritten
  rw [Rendering.callAt, Rendering.arguments_eq_asWritten hsource,
    Rendering.namedArguments_eq_asWritten hsource]
  simp only [pure_bind, hpositional, hnamed]

/-- **A call keeps its source**, and its direct parts are enclosed in parentheses if they are
calls. -/
theorem Call.keepsSource_of_parse {source : Text} {position : Position} {c : Call}
    (h : Call.parse position source = .ok c) :
    c.KeepsSource source ∧ (∀ e ∈ c.params, e.IsEnclosed) ∧ ∀ b ∈ c.named, b.2.IsEnclosed := by
  obtain ⟨t, hlex, ht⟩ := CallTree.exists_of_parse h
  obtain ⟨hname, hparams, hpairs⟩ := CallTree.call_eq_ok.1 ht
  have hhead : t.name.raw = (Expr.path c.head).source := (Path.source_of_parse hname).symm
  have hlex : lexFrom ([] : Text).length source = .ok t.yield := hlex
  obtain ⟨⟨gap, rest, hstands⟩, -⟩ := Expr.standsBehind_of_token hlex hhead
  have hsource : source = _ := hstands.append_eq
  rw [hsource] at hparams hpairs
  obtain ⟨hlaid, hall, hnamed⟩ := Argument.laidOut hparams hpairs hstands.lexFrom_rest
  exact ⟨⟨⟨gap, rest, hstands.isGap, hstands.eq, hlaid⟩, handsOver_of_isFaithful hall hnamed⟩,
    fun e he => (hall e he).isEnclosed, fun b hb => (hnamed b hb).isEnclosed⟩

theorem PartialCall.keepsSource_of_parse {source : Text} {position : Position} {c : PartialCall}
    (h : PartialCall.parse position source = .ok c) :
    c.KeepsSource source ∧ (∀ e ∈ c.name :: c.context.toList, e.IsEnclosed) ∧
      ∀ b ∈ c.named, b.2.IsEnclosed := by
  obtain ⟨t, hlex, ht⟩ := PartialTree.exists_of_parse h
  obtain ⟨hname, hcontext, hpairs⟩ := PartialTree.partialCall_eq_ok.1 ht
  have hname : t.name.partialName ([] ++ source) = .ok c.name := hname
  have hlex : lexFrom ([] : Text).length source = .ok t.yield := hlex
  obtain ⟨⟨gap, rest, hstands⟩, henclosed⟩ := Argument.standsBehind_partialName hname hlex
  have hsource : source = _ := hstands.append_eq
  rw [hsource] at hcontext hpairs
  obtain ⟨hlaid, hall, hnamed⟩ := Argument.laidOut hcontext hpairs hstands.lexFrom_rest
  exact ⟨⟨gap, rest, hstands.isGap, hstands.eq, hlaid⟩,
    List.forall_mem_cons.2 ⟨henclosed, fun e he => (hall e he).isEnclosed⟩,
    fun b hb => (hnamed b hb).isEnclosed⟩

theorem Expr.IsEnclosed.keepsSource {e : Expr} (h : e.IsEnclosed) : e.KeepsSource := by
  cases e with
  | path p => trivial
  | literal source value => trivial
  | call source head params named =>
    obtain ⟨inner, henclosed⟩ := h
    exact ⟨inner, henclosed, (Call.keepsSource_of_parse (henclosed.parse .none)).1⟩

/-- **Parts of parameters keep their source**, at any depth. -/
theorem Expr.OccursIn.keepsSource {e : Expr} {params : List Expr} {named : List (Text × Expr)}
    (h : e.OccursIn params named) (hparams : ∀ e ∈ params, e.IsEnclosed)
    (hnamed : ∀ b ∈ named, b.2.IsEnclosed) : e.KeepsSource := by
  induction h with
  | param h => exact (hparams _ h).keepsSource
  | named h => exact (hnamed _ h).keepsSource
  | nested h hpart ih ihpart =>
    obtain ⟨inner, henclosed, -⟩ := ih hparams hnamed
    obtain ⟨-, hparams', hnamed'⟩ := Call.keepsSource_of_parse (henclosed.parse .none)
    exact ihpart hparams' hnamed'

/-- **The source of a parameter is where it was written, and stands for it**, in calls as well as in
partial tags, and at any depth. -/
theorem parameters_keep_source (source : Text) (position : Position) :
    (∀ c, Call.parse position source = .ok c →
      c.KeepsSource source ∧ ∀ part : Expr, part.OccursIn c.params c.named → part.KeepsSource) ∧
    ∀ c, PartialCall.parse position source = .ok c →
      c.KeepsSource source ∧
        ∀ part : Expr, part.OccursIn (c.name :: c.context.toList) c.named → part.KeepsSource := by
  refine ⟨fun c hc => ?_, fun c hc => ?_⟩
  · obtain ⟨hkeeps, hparams, hnamed⟩ := Call.keepsSource_of_parse hc
    exact ⟨hkeeps, fun part hpart => hpart.keepsSource hparams hnamed⟩
  · obtain ⟨hkeeps, hparams, hnamed⟩ := PartialCall.keepsSource_of_parse hc
    exact ⟨hkeeps, fun part hpart => hpart.keepsSource hparams hnamed⟩

/-- A call that has a call in parentheses and a text in quotes as parameters. -/
theorem parameters_keep_source_nested :
    ∃ c, Call.parse .none "f (g x) k='y'".toList = .ok c ∧ c.params ≠ [] ∧
      c.KeepsSource "f (g x) k='y'".toList ∧
        ∀ part : Expr, part.OccursIn c.params c.named → part.KeepsSource := by
  have hok : ((Call.parse .none "f (g x) k='y'".toList).map fun c => c.params.length).toOption =
      some 1 := by
    decide +kernel
  obtain ⟨c, hparse, hlength⟩ := Except.map_eq_ok.1 (Except.toOption_eq_some.1 hok)
  have hparams : c.params ≠ [] := by
    rintro hnil
    rw [hnil] at hlength
    cases hlength
  obtain ⟨hwritten, hparts⟩ := (parameters_keep_source _ _).1 c hparse
  exact ⟨c, hparse, hparams, hwritten, hparts⟩

end Stencil
