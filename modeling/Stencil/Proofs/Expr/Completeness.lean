import Stencil.Proofs.Except
import Stencil.Proofs.Expr.Grammar
import Stencil.Proofs.Expr.Printing

/-!
# What the grammar of parameters derives is read

`ArgReader` takes the tokens of a parameter list one by one and knows of no derivation.  But
wherever a value may stand, the tokens of a value lead it to where it has added the expression that
the value stands for (`Argument.foldlM_yield`).  So it reads the tokens of a derivation to what the
derivation stands for (`CallTree.parse_of_lex`, `PartialTree.parse_of_lex`).

Not every derivation stands for something, because a word that is used as a path may be none.  There
is no other reason: `CallTree.exists_call_iff`, `PartialTree.exists_partialCall_iff`.
-/

set_option autoImplicit false

namespace Stencil

/-! ## Derivations that stand for something -/

/-- A list with at most one element is its first element. -/
theorem toList_head?_of_length_le_one {α : Type} :
    ∀ {l : List α}, l.length ≤ 1 → l.head?.toList = l
  | [], _ => rfl
  | [_], _ => rfl

namespace Argument

variable {source : Text}

mutual

/-- A value stands for an expression exactly if the words in it that are used as paths are paths. -/
theorem exists_expr_iff : ∀ a : Argument,
    (∃ e, a.expr source = .ok e) ↔ ∀ raw ∈ a.pathWords, ∃ p, Path.parse raw = .ok p
  | .quoted raw span => by simp [expr, pathWords]
  | .number raw span => by simp [expr, pathWords]
  | .word raw span => by
    cases h : Literal.ofKeyword? raw with
    | some value => simp [expr, pathWords, h]
    | none => simp [expr, pathWords, h, Except.exists_map_eq_ok]
  | .group opening name params pairs closing => by
    rw [pathWords, List.forall_mem_cons, List.forall_mem_append, ← exists_exprs_iff params,
      ← exists_named_iff pairs]
    simp only [expr, Except.exists_bind_eq_ok, Except.exists_map_eq_ok, exists_and_right]

theorem exists_exprs_iff : ∀ as : List Argument,
    (∃ es, exprs source as = .ok es) ↔ ∀ raw ∈ pathWordsAll as, ∃ p, Path.parse raw = .ok p
  | [] => by simp [exprs, pathWordsAll]
  | a :: as => by
    rw [pathWordsAll, List.forall_mem_append, ← exists_expr_iff a, ← exists_exprs_iff as]
    simp only [exprs, Except.exists_bind_eq_ok, Except.exists_map_eq_ok, exists_and_right]

theorem exists_named_iff : ∀ pairs : List (KeyWord × Argument),
    (∃ named, Argument.named source pairs = .ok named) ↔
      ∀ raw ∈ pathWordsOfPairs pairs, ∃ p, Path.parse raw = .ok p
  | [] => by simp [named, pathWordsOfPairs]
  | (key, a) :: pairs => by
    rw [pathWordsOfPairs, List.forall_mem_append, ← exists_expr_iff a, ← exists_named_iff pairs]
    simp only [named, Except.exists_bind_eq_ok, Except.exists_map_eq_ok, exists_and_right]

end

/-- A call in parentheses stands for an expression if its parts do. -/
theorem expr_group_eq_ok {opening closing : Span} {name : NameWord} {params : List Argument}
    {pairs : List (KeyWord × Argument)} {e : Expr} :
    (group opening name params pairs closing).expr source = .ok e ↔
      ∃ path es bs, Path.parse name.raw = .ok path ∧ exprs source params = .ok es ∧
        Argument.named source pairs = .ok bs ∧
          e = .call (ArgReader.slice source opening.start closing.stop) path es bs := by
  rw [expr]
  constructor
  · intro h
    obtain ⟨path, hname, h⟩ := Except.bind_eq_ok.1 h
    obtain ⟨es, hparams, h⟩ := Except.bind_eq_ok.1 h
    obtain ⟨bs, hpairs, rfl⟩ := Except.map_eq_ok.1 h
    exact ⟨path, es, bs, hname, hparams, hpairs, rfl⟩
  · rintro ⟨path, es, bs, hname, hparams, hpairs, rfl⟩
    rw [hname, hparams, hpairs]
    rfl

/-- There is an expression for each value. -/
theorem length_of_exprs_eq_ok : ∀ {as : List Argument} {es : List Expr},
    exprs source as = .ok es → as.length = es.length
  | [], es, h => by
    obtain rfl := Except.ok.inj h
    rfl
  | a :: as, es, h => by
    rw [exprs] at h
    obtain ⟨e, he, h⟩ := Except.bind_eq_ok.1 h
    obtain ⟨es, hes, rfl⟩ := Except.map_eq_ok.1 h
    rw [List.length_cons, List.length_cons, length_of_exprs_eq_ok hes]

theorem exists_partialName_iff (a : Argument) :
    (∃ e, a.partialName source = .ok e) ↔ ∀ raw ∈ a.namePathWords, ∃ p, Path.parse raw = .ok p := by
  cases a with
  | quoted raw span => simp [partialName, namePathWords]
  | number raw span => simp [partialName, namePathWords]
  | word raw span => simp [partialName, namePathWords]
  | group opening name params pairs closing => exact exists_expr_iff _

end Argument

theorem CallTree.exists_call_iff {source : Text} (t : CallTree) :
    (∃ c, t.call source = .ok c) ↔ ∀ raw ∈ t.pathWords, ∃ p, Path.parse raw = .ok p := by
  rw [pathWords, List.forall_mem_cons, List.forall_mem_append,
    ← @Argument.exists_exprs_iff source, ← @Argument.exists_named_iff source]
  simp only [call, Except.exists_bind_eq_ok, Except.exists_map_eq_ok, exists_and_right]

/-- A derivation of a call stands for a call if its parts stand for the parts of the call. -/
theorem CallTree.call_eq_ok {source : Text} {t : CallTree} {c : Call} :
    t.call source = .ok c ↔ Path.parse t.name.raw = .ok c.head ∧
      Argument.exprs source t.params = .ok c.params ∧
        Argument.named source t.pairs = .ok c.named := by
  rw [call]
  constructor
  · intro h
    obtain ⟨path, hname, h⟩ := Except.bind_eq_ok.1 h
    obtain ⟨es, hparams, h⟩ := Except.bind_eq_ok.1 h
    obtain ⟨bs, hpairs, rfl⟩ := Except.map_eq_ok.1 h
    exact ⟨hname, hparams, hpairs⟩
  · rintro ⟨hname, hparams, hpairs⟩
    rw [hname, hparams, hpairs]
    rfl

theorem PartialTree.exists_partialCall_iff {source : Text} (t : PartialTree) :
    (∃ c, t.partialCall source = .ok c) ↔ ∀ raw ∈ t.pathWords, ∃ p, Path.parse raw = .ok p := by
  rw [pathWords, List.forall_mem_append, List.forall_mem_append,
    ← @Argument.exists_partialName_iff source, ← @Argument.exists_exprs_iff source,
    ← @Argument.exists_named_iff source]
  simp only [partialCall, Except.exists_bind_eq_ok, Except.exists_map_eq_ok, exists_and_right]

/-- A derivation of a partial tag stands for a partial tag if its parts stand for the parts of the
tag. -/
theorem PartialTree.partialCall_eq_ok {source : Text} {t : PartialTree} {c : PartialCall} :
    t.partialCall source = .ok c ↔ t.name.partialName source = .ok c.name ∧
      Argument.exprs source t.context.toList = .ok c.context.toList ∧
        Argument.named source t.pairs = .ok c.named := by
  rw [partialCall]
  constructor
  · intro h
    obtain ⟨name, hname, h⟩ := Except.bind_eq_ok.1 h
    obtain ⟨es, hcontext, h⟩ := Except.bind_eq_ok.1 h
    obtain ⟨bs, hpairs, rfl⟩ := Except.map_eq_ok.1 h
    have hfew : es.length ≤ 1 := by
      rw [← Argument.length_of_exprs_eq_ok hcontext]
      cases t.context <;> simp
    rw [toList_head?_of_length_le_one hfew]
    exact ⟨hname, hcontext, hpairs⟩
  · rintro ⟨hname, hcontext, hpairs⟩
    obtain ⟨name, context, named⟩ := c
    rw [hname, hcontext, hpairs]
    cases context <;> rfl

/-! ## Values of a single token -/

namespace Argument

/-- A token that writes a parameter is a value that stands for it. -/
theorem exists_of_ofLexeme? {source : Text} {t : ArgToken} {r : Except SyntaxFault Expr}
    (h : Expr.ofLexeme? t.lexeme = some r) :
    ∃ a : Argument, a.yield = [t] ∧ a.expr source = r := by
  obtain ⟨lexeme, start, stop⟩ := t
  cases lexeme with
  | opening | closing | key name => cases h
  | quoted raw => exact ⟨.quoted raw ⟨start, stop⟩, rfl, Option.some.inj h⟩
  | number raw => exact ⟨.number raw ⟨start, stop⟩, rfl, Option.some.inj h⟩
  | word raw =>
    refine ⟨.word raw ⟨start, stop⟩, rfl, ?_⟩
    rw [Expr.ofLexeme?] at h
    rw [expr]
    cases hkeyword : Literal.ofKeyword? raw <;> rw [hkeyword] at h <;> exact Option.some.inj h

/-- A token that writes the name of a partial is a value that stands for this name. -/
theorem exists_of_partialName? {source : Text} {t : ArgToken} {e : Expr}
    (h : Expr.partialName? t.lexeme = some e) :
    ∃ a : Argument, a.yield = [t] ∧ a.partialName source = .ok e := by
  obtain ⟨lexeme, start, stop⟩ := t
  cases lexeme with
  | opening | closing | key name => cases h
  | quoted raw => exact ⟨.quoted raw ⟨start, stop⟩, rfl, congrArg _ (Option.some.inj h)⟩
  | number raw => exact ⟨.number raw ⟨start, stop⟩, rfl, congrArg _ (Option.some.inj h)⟩
  | word raw => exact ⟨.word raw ⟨start, stop⟩, rfl, congrArg _ (Option.some.inj h)⟩

end Argument

/-! ## What is derived is read -/

namespace ArgReader

variable {source : Text}

theorem foldlM_append_of_eq_ok {ts us : List ArgToken} {r r' : ArgReader}
    (h : ts.foldlM (step source) r = .ok r') :
    (ts ++ us).foldlM (step source) r = us.foldlM (step source) r' := by
  rw [List.foldlM_append, h]
  rfl

theorem foldlM_cons_of_eq_ok {t : ArgToken} {us : List ArgToken} {r r' : ArgReader}
    (h : step source r t = .ok r') :
    (t :: us).foldlM (step source) r = us.foldlM (step source) r' := by
  rw [List.foldlM_cons, h]
  rfl

/-- The name of a call is read where it is awaited. -/
theorem step_name {name : NameWord} {path : Path} (h : Path.parse name.raw = .ok path)
    (outer : List (ArgGroup × Nat)) :
    step source ⟨.empty .callAwaited, outer⟩ name.token = .ok ⟨.empty (.call path), outer⟩ := by
  simp [step, NameWord.token, Span.token, ArgGroup.empty, name.ofKeyword?, h, Except.map]

end ArgReader

namespace Argument

open ArgReader

variable {source : Text}

/-- A call in parentheses is read where its opening parenthesis may stand, once its parameters
are. -/
theorem foldlM_group {r : ArgReader} {opening closing : Span} {name : NameWord}
    {params : List Argument} {pairs : List (KeyWord × Argument)} {path : Path} {es : List Expr}
    {bs : List (Text × Expr)} (hopening : step source r (opening.token .opening) =
      .ok (r.opened opening.start)) (hname : Path.parse name.raw = .ok path)
    (hparams : ∀ outer, (yieldAll params).foldlM (step source) ⟨.empty (.call path), outer⟩ =
      .ok ⟨⟨.call path, es, [], none⟩, outer⟩)
    (hpairs : ∀ outer, (yieldPairs pairs).foldlM (step source)
      ⟨⟨.call path, es, [], none⟩, outer⟩ = .ok ⟨⟨.call path, es, bs, none⟩, outer⟩) :
    (group opening name params pairs closing).yield.foldlM (step source) r =
      .ok (r.add (.call (slice source opening.start closing.stop) path es bs)) := by
  rw [yield, foldlM_cons_of_eq_ok hopening, opened, foldlM_cons_of_eq_ok (step_name hname _),
    foldlM_append_of_eq_ok (hparams _), foldlM_append_of_eq_ok (hpairs _)]
  exact foldlM_cons_of_eq_ok (step_closing path es bs r.inner opening.start r.outer)

mutual

/-- **What is derived as a value is read**: the reader adds the expression that it stands for. -/
theorem foldlM_yield : ∀ {a : Argument} {e : Expr}, a.expr source = .ok e →
    ∀ {r : ArgReader}, r.inner.TakesValue → a.yield.foldlM (step source) r = .ok (r.add e)
  | .quoted raw span, e, h, r, hr =>
    foldlM_cons_of_eq_ok (step_value hr (congrArg some h))
  | .number raw span, e, h, r, hr =>
    foldlM_cons_of_eq_ok (step_value hr (congrArg some h))
  | .word raw span, e, h, r, hr => by
    refine foldlM_cons_of_eq_ok (step_value hr ?_)
    rw [expr] at h
    rw [Expr.ofLexeme?]
    cases hkeyword : Literal.ofKeyword? raw <;> rw [hkeyword] at h <;> exact congrArg some h
  | .group opening name params pairs closing, e, h, r, hr => by
    obtain ⟨path, es, bs, hname, hparams, hpairs, rfl⟩ := expr_group_eq_ok.1 h
    have hknown : (ArgHead.call path).IsKnown := trivial
    exact foldlM_group (step_opening hr) hname
      (fun outer => foldlM_yieldAll hparams hknown [] outer)
      fun outer => foldlM_yieldPairs hpairs hknown es [] outer

theorem foldlM_yieldAll : ∀ {as : List Argument} {es : List Expr}, exprs source as = .ok es →
    ∀ {head : ArgHead}, head.IsKnown → ∀ (earlier : List Expr) (outer : List (ArgGroup × Nat)),
      (yieldAll as).foldlM (step source) ⟨⟨head, earlier, [], none⟩, outer⟩ =
        .ok ⟨⟨head, earlier ++ es, [], none⟩, outer⟩
  | [], es, h, head, hhead, earlier, outer => by
    obtain rfl := Except.ok.inj h
    rw [List.append_nil]
    rfl
  | a :: as, es, h, head, hhead, earlier, outer => by
    rw [exprs] at h
    obtain ⟨e, he, h⟩ := Except.bind_eq_ok.1 h
    obtain ⟨es, hes, rfl⟩ := Except.map_eq_ok.1 h
    rw [yieldAll, foldlM_append_of_eq_ok (foldlM_yield he ⟨hhead, fun _ => rfl⟩), add,
      ArgGroup.add_positional hhead, foldlM_yieldAll hes hhead, List.append_assoc,
      List.singleton_append]

theorem foldlM_yieldPairs : ∀ {pairs : List (KeyWord × Argument)} {bs : List (Text × Expr)},
    named source pairs = .ok bs → ∀ {head : ArgHead}, head.IsKnown →
      ∀ (params : List Expr) (earlier : List (Text × Expr)) (outer : List (ArgGroup × Nat)),
        (yieldPairs pairs).foldlM (step source) ⟨⟨head, params, earlier, none⟩, outer⟩ =
          .ok ⟨⟨head, params, earlier ++ bs, none⟩, outer⟩
  | [], bs, h, head, hhead, params, earlier, outer => by
    obtain rfl := Except.ok.inj h
    rw [List.append_nil]
    rfl
  | (key, a) :: pairs, bs, h, head, hhead, params, earlier, outer => by
    rw [named] at h
    obtain ⟨e, he, h⟩ := Except.bind_eq_ok.1 h
    obtain ⟨bs, hbs, rfl⟩ := Except.map_eq_ok.1 h
    have hkey : step source ⟨⟨head, params, earlier, none⟩, outer⟩ key.token =
        .ok ⟨⟨head, params, earlier, some key.name⟩, outer⟩ :=
      step_key hhead params earlier outer key.name
    rw [yieldPairs, foldlM_cons_of_eq_ok hkey,
      foldlM_append_of_eq_ok (foldlM_yield he ⟨hhead, fun hkey => absurd hkey (by simp)⟩), add,
      ArgGroup.add_named hhead, foldlM_yieldPairs hbs hhead, List.append_assoc,
      List.singleton_append]

end

/-- What is derived as the name of a partial is read where it is awaited. -/
theorem foldlM_yield_partialName {a : Argument} {e : Expr} (h : a.partialName source = .ok e) :
    a.yield.foldlM (step source) ⟨.empty .partialAwaited, []⟩ =
      .ok ⟨.empty (.partialTag e), []⟩ := by
  cases a with
  | quoted raw span | number raw span | word raw span =>
    exact foldlM_cons_of_eq_ok (step_partialName (congrArg some (Except.ok.inj h)))
  | group opening name params pairs closing =>
    obtain ⟨path, es, bs, hname, hparams, hpairs, rfl⟩ := expr_group_eq_ok.1 h
    have hknown : (ArgHead.call path).IsKnown := trivial
    exact foldlM_group rfl hname (fun outer => foldlM_yieldAll hparams hknown [] outer)
      fun outer => foldlM_yieldPairs hpairs hknown es [] outer

end Argument

/-- The tokens of a call and what they stand for make a call. -/
theorem CallTree.parse_of_lex {source : Text} {t : CallTree} {c : Call}
    (hlex : lex source = .ok t.yield) (h : t.call source = .ok c) (position : Position) :
    Call.parse position source = .ok c := by
  obtain ⟨hname, hparams, hpairs⟩ := call_eq_ok.1 h
  have hknown : (ArgHead.call c.head).IsKnown := trivial
  have hread : t.yield.foldlM (ArgReader.step source) ⟨.empty .callAwaited, []⟩ =
      .ok ⟨⟨.call c.head, c.params, c.named, none⟩, []⟩ := by
    rw [yield, ArgReader.foldlM_cons_of_eq_ok (ArgReader.step_name hname _), ArgGroup.empty,
      ArgReader.foldlM_append_of_eq_ok (Argument.foldlM_yieldAll hparams hknown _ _),
      Argument.foldlM_yieldPairs hpairs hknown]
    rfl
  simp only [Call.parse, ArgGroup.read, hlex, hread]
  rfl

/-- The tokens of a partial tag and what they stand for make a partial tag. -/
theorem PartialTree.parse_of_lex {source : Text} {t : PartialTree} {c : PartialCall}
    (hlex : lex source = .ok t.yield) (h : t.partialCall source = .ok c) (position : Position) :
    PartialCall.parse position source = .ok c := by
  obtain ⟨name, context, named⟩ := c
  obtain ⟨hname, hcontext, hpairs⟩ := partialCall_eq_ok.1 h
  have hknown : (ArgHead.partialTag name).IsKnown := trivial
  have hread : t.yield.foldlM (ArgReader.step source) ⟨.empty .partialAwaited, []⟩ =
      .ok ⟨⟨.partialTag name, context.toList, named, none⟩, []⟩ := by
    rw [yield, ArgReader.foldlM_append_of_eq_ok (Argument.foldlM_yield_partialName hname),
      ArgGroup.empty,
      ArgReader.foldlM_append_of_eq_ok (Argument.foldlM_yieldAll hcontext hknown _ _),
      Argument.foldlM_yieldPairs hpairs hknown]
    rfl
  have hfinish : ArgReader.finish ⟨⟨.partialTag name, context.toList, named, none⟩, []⟩ =
      .ok ⟨.partialTag name, context.toList, named, none⟩ := by
    cases context <;> rfl
  simp only [PartialCall.parse, ArgGroup.read, hlex, hread, hfinish]
  cases context <;> rfl

end Stencil
