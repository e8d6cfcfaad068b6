import Mathlib.Data.List.Basic
import Stencil.Expr.Parse

/-!
# The grammar of parameter lists

What a parameter list should be is a matter of a grammar, and not of the groups that `ArgReader`
fills.  Its terminals are the tokens of the list, and its rules are

    call    → name value* pair*
    partial → value value? pair*
    pair    → key value
    value   → quoted | number | word | ( call )

where a name is a word that is no keyword.  A derivation is a tree: `Argument` for a value,
`CallTree` and `PartialTree` for a whole list.  `yield` is the list of tokens that it derives,
`pathWords` lists the words in it that are used as paths, and `expr`, `call` and `partialCall` say
what it stands for, which is nothing if one of these words is no path.

The grammar tells by the next token how a derivation goes on, and therefore `eq_of_yield_eq`: a list
of tokens has at most one derivation.
-/

set_option autoImplicit false

namespace Stencil

/-! ## Terminals -/

/-- The stretch of the source that a token covers. -/
structure Span where
  /-- The number of characters before it. -/
  start : Nat
  /-- The number of characters up to its end. -/
  stop : Nat

/-- The token that covers a stretch. -/
def Span.token (s : Span) (lexeme : Lexeme) : ArgToken :=
  ⟨lexeme, s.start, s.stop⟩

/-- A word that may be the name of a call. -/
structure NameWord where
  /-- The word. -/
  raw : Text
  /-- Where it stands. -/
  span : Span
  /-- It is no keyword. -/
  ofKeyword? : Literal.ofKeyword? raw = none

/-- The token of a name. -/
def NameWord.token (n : NameWord) : ArgToken :=
  n.span.token (.word n.raw)

/-- A key, without its equals sign. -/
structure KeyWord where
  /-- The key. -/
  name : Text
  /-- Where it stands. -/
  span : Span

/-- The token of a key. -/
def KeyWord.token (k : KeyWord) : ArgToken :=
  k.span.token (.key k.name)

/-! ## Derivations -/

/-- The derivation of a value. -/
inductive Argument where
  /-- A text in quotes. -/
  | quoted (raw : Text) (span : Span)
  /-- A number. -/
  | number (raw : Text) (span : Span)
  /-- A word, which is a keyword or a path. -/
  | word (raw : Text) (span : Span)
  /-- A call in parentheses. -/
  | group (opening : Span) (name : NameWord) (params : List Argument)
    (pairs : List (KeyWord × Argument)) (closing : Span)

/-- The derivation of a call. -/
structure CallTree where
  /-- The name. -/
  name : NameWord
  /-- The positional parameters. -/
  params : List Argument
  /-- The named parameters. -/
  pairs : List (KeyWord × Argument)

/-- The derivation of the content of a partial tag. -/
structure PartialTree where
  /-- The name. -/
  name : Argument
  /-- The context, if there is one. -/
  context : Option Argument
  /-- The bindings. -/
  pairs : List (KeyWord × Argument)

namespace Argument

/-! ## What a derivation derives -/

mutual

/-- The tokens of a value. -/
def yield : Argument → List ArgToken
  | .quoted raw span => [span.token (.quoted raw)]
  | .number raw span => [span.token (.number raw)]
  | .word raw span => [span.token (.word raw)]
  | .group opening name params pairs closing =>
    opening.token .opening :: name.token ::
      (yieldAll params ++ (yieldPairs pairs ++ [closing.token .closing]))

/-- The tokens of values. -/
def yieldAll : List Argument → List ArgToken
  | [] => []
  | a :: as => a.yield ++ yieldAll as

/-- The tokens of keys and their values. -/
def yieldPairs : List (KeyWord × Argument) → List ArgToken
  | [] => []
  | (key, a) :: pairs => key.token :: (a.yield ++ yieldPairs pairs)

end

mutual

/-- The words of a value that are used as paths. -/
def pathWords : Argument → List Text
  | .quoted _ _ | .number _ _ => []
  | .word raw _ => if Literal.ofKeyword? raw = none then [raw] else []
  | .group _ name params pairs _ => name.raw :: (pathWordsAll params ++ pathWordsOfPairs pairs)

/-- The words of values that are used as paths. -/
def pathWordsAll : List Argument → List Text
  | [] => []
  | a :: as => a.pathWords ++ pathWordsAll as

/-- The words of the values of pairs that are used as paths. -/
def pathWordsOfPairs : List (KeyWord × Argument) → List Text
  | [] => []
  | (_, a) :: pairs => a.pathWords ++ pathWordsOfPairs pairs

end

/-! ## What a derivation stands for -/

mutual

/-- The expression that a value stands for.  The source of a call in parentheses is the stretch from
the opening parenthesis through the closing one. -/
def expr (source : Text) : Argument → Except SyntaxFault Expr
  | .quoted raw _ => .ok (.literal raw (.text (unquote raw)))
  | .number raw _ => .ok (.literal raw (.ofNumber raw))
  | .word raw _ =>
    match Literal.ofKeyword? raw with
    | some value => .ok (.literal raw value)
    | none => (Path.parse raw).map .path
  | .group opening name params pairs closing =>
    (Path.parse name.raw).bind fun path =>
      (exprs source params).bind fun params =>
        (named source pairs).map fun named =>
          .call (ArgReader.slice source opening.start closing.stop) path params named

/-- The expressions that values stand for, in their order. -/
def exprs (source : Text) : List Argument → Except SyntaxFault (List Expr)
  | [] => .ok []
  | a :: as => (a.expr source).bind fun e => (exprs source as).map (e :: ·)

/-- The named expressions that pairs stand for, in their order. -/
def named (source : Text) : List (KeyWord × Argument) → Except SyntaxFault (List (Text × Expr))
  | [] => .ok []
  | (key, a) :: pairs =>
    (a.expr source).bind fun e => (named source pairs).map ((key.name, e) :: ·)

end

/-- The name of a partial that a value stands for: what is written out is a name and no path. -/
def partialName (source : Text) : Argument → Except SyntaxFault Expr
  | .quoted raw _ => .ok (.literal raw (.text (unquote raw)))
  | .number raw _ | .word raw _ => .ok (.literal raw (.text (partialNameOf raw)))
  | .group opening name params pairs closing =>
    (Argument.group opening name params pairs closing).expr source

/-- The words that are used as paths in a value that names a partial. -/
def namePathWords : Argument → List Text
  | .quoted _ _ | .number _ _ | .word _ _ => []
  | .group opening name params pairs closing =>
    (Argument.group opening name params pairs closing).pathWords

end Argument

namespace CallTree

/-- The tokens of a call. -/
def yield (t : CallTree) : List ArgToken :=
  t.name.token :: (Argument.yieldAll t.params ++ Argument.yieldPairs t.pairs)

/-- The words of a call that are used as paths. -/
def pathWords (t : CallTree) : List Text :=
  t.name.raw :: (Argument.pathWordsAll t.params ++ Argument.pathWordsOfPairs t.pairs)

/-- The call that a derivation stands for. -/
def call (source : Text) (t : CallTree) : Except SyntaxFault Call :=
  (Path.parse t.name.raw).bind fun path =>
    (Argument.exprs source t.params).bind fun params =>
      (Argument.named source t.pairs).map fun named => ⟨path, params, named⟩

end CallTree

namespace PartialTree

/-- The tokens of a partial tag. -/
def yield (t : PartialTree) : List ArgToken :=
  t.name.yield ++ (Argument.yieldAll t.context.toList ++ Argument.yieldPairs t.pairs)

/-- The words of a partial tag that are used as paths. -/
def pathWords (t : PartialTree) : List Text :=
  t.name.namePathWords ++
    (Argument.pathWordsAll t.context.toList ++ Argument.pathWordsOfPairs t.pairs)

/-- The partial tag that a derivation stands for. -/
def partialCall (source : Text) (t : PartialTree) : Except SyntaxFault PartialCall :=
  (t.name.partialName source).bind fun name =>
    (Argument.exprs source t.context.toList).bind fun context =>
      (Argument.named source t.pairs).map fun named => ⟨name, context.head?, named⟩

end PartialTree

/-! ## A derivation is determined by what it derives -/

/-- Whether a value begins with the token. -/
def Lexeme.beginsValue : Lexeme → Bool
  | .opening | .quoted _ | .number _ | .word _ => true
  | .closing | .key _ => false

/-- No value begins where the tokens do. -/
def EndsValues (tokens : List ArgToken) : Prop :=
  ∀ t ∈ tokens.head?, t.lexeme.beginsValue = false

/-- No key stands where the tokens begin. -/
def EndsPairs (tokens : List ArgToken) : Prop :=
  ∀ t ∈ tokens.head?, ∀ name, t.lexeme ≠ .key name

namespace Argument

/-- A value begins with a token that begins values. -/
theorem exists_yield_eq_cons (a : Argument) :
    ∃ t rest, a.yield = t :: rest ∧ t.lexeme.beginsValue = true := by
  cases a with
  | quoted raw span => exact ⟨_, [], rfl, rfl⟩
  | number raw span => exact ⟨_, [], rfl, rfl⟩
  | word raw span => exact ⟨_, [], rfl, rfl⟩
  | group opening name params pairs closing => exact ⟨_, _, rfl, rfl⟩

/-- Pairs begin with a key, so no value begins where they do. -/
theorem endsValues_yieldPairs {rest : List ArgToken} (h : EndsValues rest)
    (pairs : List (KeyWord × Argument)) : EndsValues (yieldPairs pairs ++ rest) := by
  cases pairs with
  | nil => exact h
  | cons pair pairs =>
    intro t ht
    obtain rfl := Option.some.inj ht
    rfl

theorem endsValues_nil : EndsValues [] := nofun

theorem endsPairs_nil : EndsPairs [] := nofun

theorem endsValues_closing (span : Span) (rest : List ArgToken) :
    EndsValues (span.token .closing :: rest) := by
  intro t ht
  obtain rfl := Option.some.inj ht
  rfl

theorem endsPairs_closing (span : Span) (rest : List ArgToken) :
    EndsPairs (span.token .closing :: rest) := by
  intro t ht name
  obtain rfl := Option.some.inj ht
  exact nofun

end Argument

theorem Span.token_inj {s s' : Span} {lexeme lexeme' : Lexeme}
    (h : s.token lexeme = s'.token lexeme') : lexeme = lexeme' ∧ s = s' := by
  obtain ⟨hlexeme, hstart, hstop⟩ := ArgToken.mk.inj h
  exact ⟨hlexeme, Span.mk.injEq .. ▸ ⟨hstart, hstop⟩⟩

theorem NameWord.token_inj {n n' : NameWord} (h : n.token = n'.token) : n = n' := by
  obtain ⟨raw, span, hkeyword⟩ := n
  obtain ⟨raw', span', hkeyword'⟩ := n'
  obtain ⟨hraw, rfl⟩ := Span.token_inj h
  obtain rfl := Lexeme.word.inj hraw
  rfl

theorem KeyWord.token_inj {k k' : KeyWord} (h : k.token = k'.token) : k = k' := by
  obtain ⟨name, span⟩ := k
  obtain ⟨name', span'⟩ := k'
  obtain ⟨hname, rfl⟩ := Span.token_inj h
  obtain rfl := Lexeme.key.inj hname
  rfl

namespace Argument

/-- Where two lists of values begin, both go on with a value or neither does. -/
theorem not_endsValues_yield (a : Argument) (rest : List ArgToken) :
    ¬EndsValues (a.yield ++ rest) := by
  obtain ⟨t, more, hyield, ht⟩ := a.exists_yield_eq_cons
  intro h
  have hfalse := h t (by rw [hyield]; rfl)
  rw [ht] at hfalse
  exact absurd hfalse (by decide)

mutual

/-- **A value is determined by its tokens**, whatever follows them. -/
theorem eq_of_yield_append_eq : ∀ {a b : Argument} {s t : List ArgToken},
    a.yield ++ s = b.yield ++ t → a = b ∧ s = t
  | .quoted raw span, b, s, t, h => by
    cases b <;> rw [yield, yield] at h <;> obtain ⟨htoken, hrest⟩ := List.cons.inj h <;>
      obtain ⟨hlexeme, rfl⟩ := Span.token_inj htoken
    case quoted => exact ⟨congrArg (quoted · span) (Lexeme.quoted.inj hlexeme), hrest⟩
    all_goals exact Lexeme.noConfusion hlexeme
  | .number raw span, b, s, t, h => by
    cases b <;> rw [yield, yield] at h <;> obtain ⟨htoken, hrest⟩ := List.cons.inj h <;>
      obtain ⟨hlexeme, rfl⟩ := Span.token_inj htoken
    case number => exact ⟨congrArg (number · span) (Lexeme.number.inj hlexeme), hrest⟩
    all_goals exact Lexeme.noConfusion hlexeme
  | .word raw span, b, s, t, h => by
    cases b <;> rw [yield, yield] at h <;> obtain ⟨htoken, hrest⟩ := List.cons.inj h <;>
      obtain ⟨hlexeme, rfl⟩ := Span.token_inj htoken
    case word => exact ⟨congrArg (word · span) (Lexeme.word.inj hlexeme), hrest⟩
    all_goals exact Lexeme.noConfusion hlexeme
  | .group opening name params pairs closing, b, s, t, h => by
    cases b <;> rw [yield, yield] at h <;> obtain ⟨htoken, hrest⟩ := List.cons.inj h <;>
      obtain ⟨hlexeme, rfl⟩ := Span.token_inj htoken
    case group name' params' pairs' closing' =>
      obtain ⟨hname, hparams⟩ := List.cons.inj hrest
      obtain rfl := NameWord.token_inj hname
      simp only [List.append_eq, List.append_assoc, List.singleton_append] at hparams
      obtain ⟨rfl, hpairs⟩ := eq_of_yieldAll_append_eq
        (endsValues_yieldPairs (endsValues_closing _ _) _)
        (endsValues_yieldPairs (endsValues_closing _ _) _) hparams
      obtain ⟨rfl, hend⟩ := eq_of_yieldPairs_append_eq (endsPairs_closing _ _)
        (endsPairs_closing _ _) hpairs
      obtain ⟨hclosing, rfl⟩ := List.cons.inj hend
      obtain ⟨-, rfl⟩ := Span.token_inj hclosing
      exact ⟨rfl, rfl⟩
    all_goals exact Lexeme.noConfusion hlexeme

theorem eq_of_yieldAll_append_eq : ∀ {as bs : List Argument} {s t : List ArgToken},
    EndsValues s → EndsValues t → yieldAll as ++ s = yieldAll bs ++ t → as = bs ∧ s = t
  | [], [], s, t, _, _, h => ⟨rfl, h⟩
  | [], b :: bs, s, t, hs, _, h => by
    rw [yieldAll, yieldAll, List.nil_append, List.append_assoc] at h
    exact absurd (h ▸ hs) (not_endsValues_yield b _)
  | a :: as, [], s, t, _, ht, h => by
    rw [yieldAll, yieldAll, List.nil_append, List.append_assoc] at h
    exact absurd (h ▸ ht) (not_endsValues_yield a _)
  | a :: as, b :: bs, s, t, hs, ht, h => by
    rw [yieldAll, yieldAll, List.append_assoc, List.append_assoc] at h
    obtain ⟨rfl, hrest⟩ := eq_of_yield_append_eq h
    obtain ⟨rfl, rfl⟩ := eq_of_yieldAll_append_eq hs ht hrest
    exact ⟨rfl, rfl⟩

theorem eq_of_yieldPairs_append_eq : ∀ {ps qs : List (KeyWord × Argument)} {s t : List ArgToken},
    EndsPairs s → EndsPairs t → yieldPairs ps ++ s = yieldPairs qs ++ t → ps = qs ∧ s = t
  | [], [], s, t, _, _, h => ⟨rfl, h⟩
  | [], (key, b) :: qs, s, t, hs, _, h => by
    rw [yieldPairs, yieldPairs, List.nil_append, List.cons_append] at h
    exact absurd rfl (hs key.token (by rw [h]; rfl) key.name)
  | (key, a) :: ps, [], s, t, _, ht, h => by
    rw [yieldPairs, yieldPairs, List.nil_append, List.cons_append] at h
    exact absurd rfl (ht key.token (by rw [← h]; rfl) key.name)
  | (key, a) :: ps, (key', b) :: qs, s, t, hs, ht, h => by
    rw [yieldPairs, yieldPairs, List.cons_append, List.cons_append, List.append_assoc,
      List.append_assoc] at h
    obtain ⟨hkey, hrest⟩ := List.cons.inj h
    obtain rfl := KeyWord.token_inj hkey
    obtain ⟨rfl, hmore⟩ := eq_of_yield_append_eq hrest
    obtain ⟨rfl, rfl⟩ := eq_of_yieldPairs_append_eq hs ht hmore
    exact ⟨rfl, rfl⟩

end

/-- Values and pairs are determined by their tokens. -/
theorem eq_of_yields_eq {as bs : List Argument} {ps qs : List (KeyWord × Argument)}
    (h : yieldAll as ++ yieldPairs ps = yieldAll bs ++ yieldPairs qs) : as = bs ∧ ps = qs := by
  have hends : ∀ pairs : List (KeyWord × Argument), EndsValues (yieldPairs pairs) := fun pairs => by
    have hpairs := endsValues_yieldPairs endsValues_nil pairs
    rwa [List.append_nil] at hpairs
  obtain ⟨rfl, hpairs⟩ := eq_of_yieldAll_append_eq (hends ps) (hends qs) h
  rw [← List.append_nil (yieldPairs ps), ← List.append_nil (yieldPairs qs)] at hpairs
  exact ⟨rfl, (eq_of_yieldPairs_append_eq endsPairs_nil endsPairs_nil hpairs).1⟩

end Argument

/-- **A list of tokens has at most one derivation as a call.** -/
theorem CallTree.eq_of_yield_eq {t t' : CallTree} (h : t.yield = t'.yield) : t = t' := by
  obtain ⟨name, params, pairs⟩ := t
  obtain ⟨name', params', pairs'⟩ := t'
  obtain ⟨hname, hrest⟩ := List.cons.inj h
  obtain rfl := NameWord.token_inj hname
  obtain ⟨rfl, rfl⟩ := Argument.eq_of_yields_eq hrest
  rfl

/-- **A list of tokens has at most one derivation as the content of a partial tag.** -/
theorem PartialTree.eq_of_yield_eq {t t' : PartialTree} (h : t.yield = t'.yield) : t = t' := by
  obtain ⟨name, context, pairs⟩ := t
  obtain ⟨name', context', pairs'⟩ := t'
  obtain ⟨rfl, hrest⟩ := Argument.eq_of_yield_append_eq h
  obtain ⟨hcontext, rfl⟩ := Argument.eq_of_yields_eq hrest
  have heq : context = context' := by
    simpa using congrArg List.head? hcontext
  rw [heq]

end Stencil
