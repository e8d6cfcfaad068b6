import Stencil.Proofs.Expr.Completeness

/-!
# Parameter lists are read by their grammar

`ArgReader` accepts what the grammar derives and nothing else, and it answers what the derivation
stands for: `parameters_by_grammar`.

What is left to show is that what is read is derived.  At any time the tokens that have been taken
are the beginnings of derivations: each open group has its name, complete values, complete pairs and
perhaps a key (`ArgGroup.Holds`), and each token adds to the innermost of them, or opens or closes
one (`ArgReader.Holds.step`).  What a token can do is listed by `ArgReader.Steps`.
-/

set_option autoImplicit false

namespace Stencil

/-! ## What is read is derived -/

/-- A token covers the stretch from its start to its end. -/
theorem ArgToken.eq_token {t : ArgToken} {lexeme : Lexeme} (h : t.lexeme = lexeme) :
    t = Span.token ⟨t.start, t.stop⟩ lexeme := by
  rw [← h]
  rfl

namespace ArgReader

/-- What the reader may do with the next token. -/
inductive Steps (source : Text) (r : ArgReader) (t : ArgToken) : ArgReader → Prop
  /-- It takes the name of a call. -/
  | name {raw : Text} {path : Path} (hhead : r.inner.head = .callAwaited)
      (ht : t.lexeme = .word raw) (hkeyword : Literal.ofKeyword? raw = none)
      (hpath : Path.parse raw = .ok path) :
      Steps source r t { r with inner := { r.inner with head := .call path } }
  /-- It takes the name of a partial. -/
  | partialName {e : Expr} (hhead : r.inner.head = .partialAwaited)
      (ht : Expr.partialName? t.lexeme = some e) : Steps source r t (r.add e)
  /-- It takes a parameter. -/
  | value {e : Expr} (h : r.inner.TakesValue) (ht : Expr.ofLexeme? t.lexeme = some (.ok e)) :
      Steps source r t (r.add e)
  /-- It takes a key. -/
  | key {name : Text} (hhead : r.inner.head.IsKnown) (ht : t.lexeme = .key name)
      (hpending : r.inner.pending = none) :
      Steps source r t { r with inner := { r.inner with pending := some name } }
  /-- It opens a group. -/
  | opening (h : r.inner.head = .partialAwaited ∨ r.inner.TakesValue)
      (ht : t.lexeme = .opening) : Steps source r t (r.opened t.start)
  /-- It closes a group. -/
  | closing {path : Path} {group : ArgGroup} {start : Nat} {outer : List (ArgGroup × Nat)}
      (hhead : r.inner.head = .call path) (ht : t.lexeme = .closing)
      (hpending : r.inner.pending = none) (houter : r.outer = (group, start) :: outer) :
      Steps source r t
        ⟨group.add (.call (slice source start t.stop) path r.inner.params r.inner.named), outer⟩

variable {source : Text} {r r' : ArgReader} {t : ArgToken}

theorem takesValue_of_refusal? {g : ArgGroup} {lexeme : Lexeme} (hhead : g.head.IsKnown)
    (h : g.refusal? lexeme = none) : g.TakesValue := by
  refine ⟨hhead, fun hpending => ?_⟩
  by_contra hnamed
  rw [ArgGroup.refusal?, if_pos ⟨by rw [hpending]; rfl, hnamed⟩] at h
  exact absurd h (by simp)

/-- A group is closed if it is complete and belongs to a call in parentheses. -/
theorem close_eq_ok {stop : Nat} (h : r.close source stop = .ok r') :
    ∃ path group start outer, r.inner.head = .call path ∧ r.inner.pending = none ∧
      r.outer = (group, start) :: outer ∧
        r' = ⟨group.add (.call (slice source start stop) path r.inner.params r.inner.named),
          outer⟩ := by
  rw [close] at h
  split at h
  · cases h
  · next hcomplete =>
    split at h
    · next group start outer path houter hhead =>
      have hpending : r.inner.pending = none := by
        cases hp : r.inner.pending with
        | none => rfl
        | some key => simp [ArgGroup.incomplete?, hp] at hcomplete
      exact ⟨path, group, start, outer, hhead, hpending, houter, (Except.ok.inj h).symm⟩
    · cases h

/-- What the reader does in a group whose name is known. -/
theorem steps_of_isKnown (hhead : r.inner.head.IsKnown) (h : step source r t = .ok r') :
    Steps source r t r' := by
  obtain ⟨lexeme, start, stop⟩ := t
  have hvalue : ∀ {value : Except SyntaxFault Expr}, r.inner.refusal? lexeme = none →
      Expr.ofLexeme? lexeme = some value → value.map r.add = .ok r' →
        Steps source r ⟨lexeme, start, stop⟩ r' := by
    intro value hrefusal ht hadd
    obtain ⟨e, rfl, rfl⟩ := Except.map_eq_ok.1 hadd
    exact .value (takesValue_of_refusal? hhead hrefusal) ht
  cases hr : r.inner.head with
  | callAwaited | partialAwaited => rw [hr] at hhead; exact hhead.elim
  | call path | partialTag name =>
    cases lexeme with
    | closing =>
      simp only [step, hr] at h
      split at h
      · next hclose =>
        obtain rfl := Except.ok.inj h
        obtain ⟨path, group, start, outer, hcall, hpending, houter, rfl⟩ := close_eq_ok hclose
        exact .closing hcall rfl hpending houter
      · cases h
    | key name =>
      simp only [step, hr] at h
      split at h
      · cases h
      · next hpending =>
        obtain rfl := Except.ok.inj h
        rw [← hr]
        exact .key hhead rfl (by simpa using hpending)
    | opening =>
      simp only [step, hr] at h
      split at h
      · cases h
      · next hrefusal =>
        obtain rfl := Except.ok.inj h
        exact .opening (.inr (takesValue_of_refusal? hhead hrefusal)) rfl
    | quoted raw | number raw | word raw =>
      simp only [step, hr] at h
      split at h
      · cases h
      · next hrefusal ht => exact hvalue hrefusal ht h
      · cases h

/-- **The reader does nothing else** with a token that it does not refuse. -/
theorem steps_of_step (h : step source r t = .ok r') : Steps source r t r' := by
  cases hr : r.inner.head with
  | call path | partialTag name => exact steps_of_isKnown (by rw [hr]; trivial) h
  | callAwaited =>
    obtain ⟨lexeme, start, stop⟩ := t
    cases lexeme with
    | word raw =>
      simp only [step, hr] at h
      split at h
      · cases h
      · next hkeyword =>
        obtain ⟨path, hpath, rfl⟩ := Except.map_eq_ok.1 h
        exact .name hr rfl (by simpa using hkeyword) hpath
    | opening | closing | quoted raw | number raw | key name =>
      simp only [step, hr] at h
      cases h
  | partialAwaited =>
    obtain ⟨lexeme, start, stop⟩ := t
    cases lexeme with
    | opening =>
      simp only [step, hr] at h
      obtain rfl := Except.ok.inj h
      exact .opening (.inl hr) rfl
    | closing | quoted raw | number raw | key name | word raw =>
      simp only [step, hr] at h
      split at h
      · next ht =>
        obtain rfl := Except.ok.inj h
        exact .partialName hr ht
      · cases h

end ArgReader

namespace Argument

variable {source : Text}

theorem yieldAll_concat (as : List Argument) (a : Argument) :
    yieldAll (as ++ [a]) = yieldAll as ++ a.yield := by
  induction as with
  | nil => rw [List.nil_append, yieldAll, yieldAll, yieldAll, List.append_nil, List.nil_append]
  | cons b as ih => rw [List.cons_append, yieldAll, yieldAll, ih, List.append_assoc]

theorem yieldPairs_concat (pairs : List (KeyWord × Argument)) (key : KeyWord) (a : Argument) :
    yieldPairs (pairs ++ [(key, a)]) = yieldPairs pairs ++ (key.token :: a.yield) := by
  induction pairs with
  | nil =>
    rw [List.nil_append, yieldPairs, yieldPairs, yieldPairs, List.append_nil, List.nil_append]
  | cons pair pairs ih =>
    rw [List.cons_append, yieldPairs, yieldPairs, ih, List.cons_append, List.append_assoc]

theorem exprs_concat {a : Argument} {e : Expr} (ha : a.expr source = .ok e) :
    ∀ {as : List Argument} {es : List Expr}, exprs source as = .ok es →
      exprs source (as ++ [a]) = .ok (es ++ [e])
  | [], es, h => by
    obtain rfl := Except.ok.inj h
    rw [List.nil_append, exprs, ha]
    rfl
  | b :: as, es, h => by
    rw [exprs] at h
    obtain ⟨f, hf, h⟩ := Except.bind_eq_ok.1 h
    obtain ⟨es, hes, rfl⟩ := Except.map_eq_ok.1 h
    rw [List.cons_append, exprs, hf, exprs_concat ha hes]
    rfl

theorem named_concat {key : KeyWord} {a : Argument} {e : Expr} (ha : a.expr source = .ok e) :
    ∀ {pairs : List (KeyWord × Argument)} {bs : List (Text × Expr)}, named source pairs = .ok bs →
      named source (pairs ++ [(key, a)]) = .ok (bs ++ [(key.name, e)])
  | [], bs, h => by
    obtain rfl := Except.ok.inj h
    rw [List.nil_append, named, ha]
    rfl
  | (other, b) :: pairs, bs, h => by
    rw [named] at h
    obtain ⟨f, hf, h⟩ := Except.bind_eq_ok.1 h
    obtain ⟨bs, hbs, rfl⟩ := Except.map_eq_ok.1 h
    rw [List.cons_append, named, hf, named_concat ha hbs]
    rfl

theorem eq_nil_of_named_eq_nil {pairs : List (KeyWord × Argument)}
    (h : named source pairs = .ok []) : pairs = [] := by
  cases pairs with
  | nil => rfl
  | cons pair pairs =>
    rw [named] at h
    obtain ⟨e, he, h⟩ := Except.bind_eq_ok.1 h
    obtain ⟨bs, hbs, hcons⟩ := Except.map_eq_ok.1 h
    cases hcons

end Argument

/-- The tokens are the name of a group. -/
inductive ArgHead.Holds (source : Text) : ArgHead → List ArgToken → Prop
  /-- The name of a call. -/
  | call {name : NameWord} {path : Path} (h : Path.parse name.raw = .ok path) :
      Holds source (.call path) [name.token]
  /-- The name of a partial. -/
  | partialTag {a : Argument} {e : Expr} (h : a.partialName source = .ok e) :
      Holds source (.partialTag e) a.yield

/-- The tokens have been read into a group. -/
inductive ArgGroup.Holds (source : Text) : ArgGroup → List ArgToken → Prop
  /-- There are none before the name. -/
  | awaited {head : ArgHead} (h : ¬head.IsKnown) : Holds source (.empty head) []
  /-- They are the name, values, pairs, and perhaps a key whose value is awaited. -/
  | known {head : ArgHead} {name : List ArgToken} {params : List Argument} {es : List Expr}
      {pairs : List (KeyWord × Argument)} {bs : List (Text × Expr)} (key : Option KeyWord)
      (hhead : head.Holds source name) (hparams : Argument.exprs source params = .ok es)
      (hpairs : Argument.named source pairs = .ok bs) :
      Holds source ⟨head, es, bs, key.map KeyWord.name⟩
        (name ++ (Argument.yieldAll params ++
          (Argument.yieldPairs pairs ++ (key.map KeyWord.token).toList)))

namespace ArgGroup

variable {source : Text} {g : ArgGroup} {ts : List ArgToken} {a : Argument} {e : Expr}

/-- A group of which only the name has been read. -/
theorem Holds.of_name {head : ArgHead} {name : List ArgToken} (h : head.Holds source name) :
    (empty head).Holds source name := by
  have hknown := @Holds.known source head name [] [] [] [] none h rfl rfl
  rw [Argument.yieldAll, Argument.yieldPairs, Option.map_none, Option.map_none, Option.toList_none,
    List.append_nil, List.append_nil, List.append_nil] at hknown
  exact hknown

/-- A group that takes a parameter takes the tokens of a value. -/
theorem Holds.add_value (h : g.Holds source ts) (htakes : g.TakesValue)
    (ha : a.expr source = .ok e) : (g.add e).Holds source (ts ++ a.yield) := by
  cases h with
  | awaited hhead => exact absurd htakes.head hhead
  | @known head name params es pairs bs key hhead hparams hpairs =>
    cases key with
    | none =>
      obtain rfl : bs = [] := htakes.order rfl
      obtain rfl := Argument.eq_nil_of_named_eq_nil hpairs
      have hadded := Holds.known none hhead (Argument.exprs_concat ha hparams) hpairs
      rw [Argument.yieldAll_concat] at hadded
      show (add ⟨head, es, [], none⟩ e).Holds source _
      rw [add_positional htakes.head]
      simpa [Argument.yieldPairs] using hadded
    | some key =>
      have hconcat : Argument.named source (pairs ++ [(key, a)]) = .ok (bs ++ [(key.name, e)]) :=
        Argument.named_concat ha hpairs
      have hadded := Holds.known none hhead hparams hconcat
      rw [Argument.yieldPairs_concat] at hadded
      show (add ⟨head, es, bs, some key.name⟩ e).Holds source _
      rw [add_named htakes.head]
      simpa using hadded

/-- A group that awaits the name of a partial takes the tokens of the name. -/
theorem Holds.add_partialName (h : g.Holds source ts) (hhead : g.head = .partialAwaited)
    (ha : a.partialName source = .ok e) : (g.add e).Holds source (ts ++ a.yield) := by
  cases h with
  | awaited =>
    obtain rfl : _ = ArgHead.partialAwaited := hhead
    exact .of_name (.partialTag ha)
  | known key h =>
    obtain rfl : _ = ArgHead.partialAwaited := hhead
    cases h

/-- A call in parentheses is a parameter or the name of a partial. -/
theorem Holds.add_group {opening closing : Span} {name : NameWord} {params : List Argument}
    {pairs : List (KeyWord × Argument)} (h : g.Holds source ts)
    (htakes : g.head = .partialAwaited ∨ g.TakesValue)
    (ha : (Argument.group opening name params pairs closing).expr source = .ok e) :
    (g.add e).Holds source (ts ++ (Argument.group opening name params pairs closing).yield) := by
  rcases htakes with hhead | htakes
  · exact h.add_partialName hhead ha
  · exact h.add_value htakes ha

end ArgGroup

namespace ArgReader

/-- The tokens have been read into the groups that wait for a group inside them to close. -/
inductive HoldsOuter (source : Text) : List (ArgGroup × Nat) → List ArgToken → Prop
  /-- There is no such group. -/
  | nil : HoldsOuter source [] []
  /-- The innermost of them takes what the parenthesis opens. -/
  | cons {group : ArgGroup} {opening : Span} {outer : List (ArgGroup × Nat)}
      {ts us : List ArgToken} (hgroup : group.Holds source us)
      (htakes : group.head = .partialAwaited ∨ group.TakesValue)
      (houter : HoldsOuter source outer ts) :
      HoldsOuter source ((group, opening.start) :: outer)
        (ts ++ (us ++ [opening.token .opening]))

/-- The tokens have been read into the groups of a reader. -/
inductive Holds (source : Text) : ArgReader → List ArgToken → Prop
  /-- Those of the outer groups come first. -/
  | mk {group : ArgGroup} {outer : List (ArgGroup × Nat)} {ts us : List ArgToken}
      (houter : HoldsOuter source outer ts) (hinner : group.Holds source us) :
      Holds source ⟨group, outer⟩ (ts ++ us)

variable {source : Text} {r r' : ArgReader} {ts us : List ArgToken} {t : ArgToken}

/-- The innermost group goes on. -/
theorem Holds.of_inner {group group' : ArgGroup} {outer : List (ArgGroup × Nat)}
    (h : Holds source ⟨group, outer⟩ ts)
    (hinner : ∀ us, group.Holds source us → group'.Holds source (us ++ [t])) :
    Holds source ⟨group', outer⟩ (ts ++ [t]) := by
  obtain ⟨houter, hgroup⟩ := h
  rw [List.append_assoc]
  exact .mk houter (hinner _ hgroup)

/-- **A step reads one token more.** -/
theorem Holds.step (h : r.Holds source ts) (hstep : Steps source r t r') :
    r'.Holds source (ts ++ [t]) := by
  obtain ⟨inner, outer⟩ := r
  cases hstep with
  | @name raw path hhead ht hkeyword hpath =>
    refine h.of_inner fun us hus => ?_
    have ht : t = NameWord.token ⟨raw, ⟨t.start, t.stop⟩, hkeyword⟩ := ArgToken.eq_token ht
    cases hus with
    | awaited =>
      rw [ht]
      exact .of_name (@ArgHead.Holds.call source ⟨raw, _, hkeyword⟩ path hpath)
    | known key hnames =>
      obtain rfl : _ = ArgHead.callAwaited := hhead
      cases hnames
  | partialName hhead ht =>
    obtain ⟨a, hyield, ha⟩ := @Argument.exists_of_partialName? source _ _ ht
    exact h.of_inner fun us hus => hyield ▸ hus.add_partialName hhead ha
  | value htakes ht =>
    obtain ⟨a, hyield, ha⟩ := @Argument.exists_of_ofLexeme? source _ _ ht
    exact h.of_inner fun us hus => hyield ▸ hus.add_value htakes ha
  | @key name hhead ht hpending =>
    refine h.of_inner fun us hus => ?_
    have ht : t = KeyWord.token ⟨name, ⟨t.start, t.stop⟩⟩ := ArgToken.eq_token ht
    cases hus with
    | awaited hawaited => exact absurd hhead hawaited
    | known key hnames hparams hpairs =>
      cases key with
      | some key => cases hpending
      | none =>
        have hkey := ArgGroup.Holds.known (some ⟨name, ⟨t.start, t.stop⟩⟩) hnames hparams hpairs
        rw [Option.map_some, Option.map_some, ← ht] at hkey
        simpa using hkey
  | opening htakes ht =>
    obtain ⟨houter, hinner⟩ := h
    have hopened := Holds.mk
      (@HoldsOuter.cons source inner ⟨t.start, t.stop⟩ outer _ _ hinner htakes houter)
      (@ArgGroup.Holds.awaited source .callAwaited id)
    rw [← ArgToken.eq_token ht, List.append_nil, ← List.append_assoc] at hopened
    exact hopened
  | @closing path group start rest hhead ht hpending hrest =>
    obtain ⟨houter, hinner⟩ := h
    obtain rfl : outer = (group, start) :: rest := hrest
    cases houter with
    | @cons _ opening _ ts us hgroup htakes houter =>
    cases hinner with
    | awaited hawaited =>
      obtain rfl : _ = ArgHead.call path := hhead
      exact absurd trivial hawaited
    | @known _ _ params es pairs bs key hnames hparams hpairs =>
    obtain rfl : _ = ArgHead.call path := hhead
    obtain rfl : key = none := by simpa using hpending
    cases hnames with
    | @call name _ hname =>
    have ha : (Argument.group opening name params pairs ⟨t.start, t.stop⟩).expr source =
        .ok (.call (slice source opening.start t.stop) path es bs) :=
      Argument.expr_group_eq_ok.2 ⟨path, es, bs, hname, hparams, hpairs, rfl⟩
    have hclosed := Holds.mk houter (hgroup.add_group htakes ha)
    rw [Argument.yield, ← ArgToken.eq_token ht] at hclosed
    simpa using hclosed

/-- A run reads all its tokens. -/
theorem Holds.foldlM (h : r.Holds source ts) (hrun : us.foldlM (ArgReader.step source) r = .ok r') :
    r'.Holds source (ts ++ us) := by
  induction us generalizing r ts with
  | nil =>
    obtain rfl := Except.ok.inj hrun
    rwa [List.append_nil]
  | cons t us ih =>
    rw [List.foldlM_cons] at hrun
    obtain ⟨r₁, hstep, hrun⟩ := Except.bind_eq_ok.1 hrun
    rw [List.append_cons]
    exact ih (h.step (steps_of_step hstep)) hrun

/-- A list of parameters that ends has one group, which is complete. -/
theorem finish_eq_ok {g : ArgGroup} (h : r.finish = .ok g) :
    r.outer = [] ∧ r.inner = g ∧ g.incomplete? = none := by
  rw [finish] at h
  split at h
  · cases h
  · cases h
  · cases h
  · split at h
    · cases h
    · next hcomplete =>
      split at h
      · next hempty =>
        obtain rfl := Except.ok.inj h
        exact ⟨List.isEmpty_iff.1 hempty, rfl, hcomplete⟩
      · cases h

end ArgReader

/-- A complete group whose name is known holds a name, values and pairs. -/
theorem ArgGroup.Holds.exists_of_complete {source : Text} {g : ArgGroup} {ts : List ArgToken}
    (h : g.Holds source ts) (hhead : g.head.IsKnown) (hcomplete : g.incomplete? = none) :
    ∃ name params pairs, g.head.Holds source name ∧
      Argument.exprs source params = .ok g.params ∧
        Argument.named source pairs = .ok g.named ∧
          ts = name ++ (Argument.yieldAll params ++ Argument.yieldPairs pairs) := by
  cases h with
  | awaited hawaited => exact absurd hhead hawaited
  | @known head name params es pairs bs key hnames hparams hpairs =>
    cases key with
    | some key => cases hcomplete
    | none => exact ⟨name, params, pairs, hnames, hparams, hpairs, by simp⟩

/-- The tokens of a group that has been read are those of the group. -/
theorem ArgGroup.holds_of_read {source : Text} {head : ArgHead} {g : ArgGroup}
    (hhead : ¬head.IsKnown) (h : ArgGroup.read head source = .ok g) :
    ∃ ts, lex source = .ok ts ∧ g.Holds source ts ∧ g.incomplete? = none := by
  rw [ArgGroup.read] at h
  split at h
  · cases h
  · next tokens hlex =>
    split at h
    · cases h
    · next reader hrun =>
      split at h
      · cases h
      · next group hfinish =>
        obtain rfl := Except.ok.inj h
        have hstart : ArgReader.Holds source ⟨.empty head, []⟩ [] := .mk .nil (.awaited hhead)
        have hread : reader.Holds source tokens := hstart.foldlM hrun
        obtain ⟨inner, outer⟩ := reader
        obtain ⟨rfl, rfl, hcomplete⟩ := ArgReader.finish_eq_ok hfinish
        cases hread with
        | mk houter hinner =>
          cases houter with
          | nil => exact ⟨_, hlex, hinner, hcomplete⟩

/-- **A call that is read is derived** by its tokens, and it is what the derivation stands for. -/
theorem CallTree.exists_of_parse {source : Text} {position : Position} {c : Call}
    (h : Call.parse position source = .ok c) :
    ∃ t : CallTree, lex source = .ok t.yield ∧ t.call source = .ok c := by
  rw [Call.parse] at h
  split at h
  · cases h
  · next g hread =>
    split at h
    · next path hhead =>
      obtain rfl := Except.ok.inj h
      obtain ⟨ts, hlex, hholds, hcomplete⟩ := ArgGroup.holds_of_read id hread
      obtain ⟨head, params, named, pending⟩ := g
      obtain rfl : head = .call path := hhead
      obtain ⟨_, params, pairs, hname, hparams, hpairs, rfl⟩ :=
        hholds.exists_of_complete trivial hcomplete
      cases hname with
      | @call name _ hname =>
        exact ⟨⟨name, params, pairs⟩, hlex, CallTree.call_eq_ok.2 ⟨hname, hparams, hpairs⟩⟩
    · cases h

/-- **A partial tag that is read is derived** by its tokens, and it is what the derivation stands
for. -/
theorem PartialTree.exists_of_parse {source : Text} {position : Position} {c : PartialCall}
    (h : PartialCall.parse position source = .ok c) :
    ∃ t : PartialTree, lex source = .ok t.yield ∧ t.partialCall source = .ok c := by
  rw [PartialCall.parse] at h
  split at h
  · cases h
  · next g hread =>
    split at h
    · next name hhead =>
      obtain rfl := Except.ok.inj h
      obtain ⟨ts, hlex, hholds, hcomplete⟩ := ArgGroup.holds_of_read id hread
      obtain ⟨head, es, named, pending⟩ := g
      obtain rfl : head = .partialTag name := hhead
      obtain ⟨_, params, pairs, hname, hparams, hpairs, rfl⟩ :=
        hholds.exists_of_complete trivial hcomplete
      have hfew : es.length ≤ 1 := by
        cases pending with
        | some key => cases hcomplete
        | none => simpa [ArgGroup.incomplete?] using hcomplete
      have hcontext := toList_head?_of_length_le_one hfew
      have hvalues := toList_head?_of_length_le_one
        ((Argument.length_of_exprs_eq_ok hparams).le.trans hfew)
      cases hname with
      | @partialTag a _ hname =>
        refine ⟨⟨a, params.head?, pairs⟩, ?_, PartialTree.partialCall_eq_ok.2 ⟨hname, ?_, hpairs⟩⟩
        · rw [PartialTree.yield, hvalues]
          exact hlex
        · rw [hvalues, hcontext]
          exact hparams
    · cases h

/-! ## The grammar -/

/-- A parser reads a source by a grammar: its derivations `yield` tokens, use words as paths, and
stand for a `result`. -/
structure ReadsByGrammar {Derivation Result : Type} (source : Text) (position : Position)
    (yield : Derivation → List ArgToken) (pathWords : Derivation → List Text)
    (result : Derivation → Except SyntaxFault Result) (parsed : Except TemplateError Result) :
    Prop where
  /-- It succeeds exactly if the tokens of the source are derived and the words that the derivation
  uses as paths are paths. -/
  succeeds_iff : (∃ c, parsed = .ok c) ↔
    ∃ d, lex source = .ok (yield d) ∧ ∀ raw ∈ pathWords d, ∃ p, Path.parse raw = .ok p
  /-- There is no other derivation of the tokens. -/
  unique : ∀ d d', lex source = .ok (yield d) → lex source = .ok (yield d') → d = d'
  /-- It answers what the derivation stands for. -/
  result : ∀ d, lex source = .ok (yield d) → ∀ c, parsed = .ok c ↔ result d = .ok c
  /-- Any other source is refused at the position of the tag. -/
  refused : (¬∃ c, parsed = .ok c) → ∃ fault, parsed = .error (.malformed fault position)

section

variable {Derivation Result : Type} {source : Text} {position : Position}
  {yield : Derivation → List ArgToken} {pathWords : Derivation → List Text}
  {result : Derivation → Except SyntaxFault Result} {parsed : Except TemplateError Result}

/-- A parser reads by a grammar if what it reads is derived and what is derived is read. -/
theorem ReadsByGrammar.of_sound_of_complete
    (hsound : ∀ c, parsed = .ok c → ∃ d, lex source = .ok (yield d) ∧ result d = .ok c)
    (hcomplete : ∀ d c, lex source = .ok (yield d) → result d = .ok c → parsed = .ok c)
    (hyield : ∀ d d', yield d = yield d' → d = d')
    (hwords : ∀ d, (∃ c, result d = .ok c) ↔ ∀ raw ∈ pathWords d, ∃ p, Path.parse raw = .ok p)
    (hrefused : ∀ e, parsed = .error e → ∃ fault, e = .malformed fault position) :
    ReadsByGrammar source position yield pathWords result parsed := by
  have hunique : ∀ d d', lex source = .ok (yield d) → lex source = .ok (yield d') → d = d' :=
    fun d d' hd hd' => hyield d d' (Except.ok.inj (hd.symm.trans hd'))
  refine ⟨⟨?_, ?_⟩, hunique, fun d hd c => ⟨fun hc => ?_, hcomplete d c hd⟩, fun hfails => ?_⟩
  · rintro ⟨c, hc⟩
    obtain ⟨d, hlex, hd⟩ := hsound c hc
    exact ⟨d, hlex, (hwords d).1 ⟨c, hd⟩⟩
  · rintro ⟨d, hlex, hpaths⟩
    obtain ⟨c, hc⟩ := (hwords d).2 hpaths
    exact ⟨c, hcomplete d c hlex hc⟩
  · obtain ⟨d', hlex, hd'⟩ := hsound c hc
    rwa [hunique d d' hd hlex]
  · cases hparsed : parsed with
    | ok c => exact absurd ⟨c, hparsed⟩ hfails
    | error e =>
      obtain ⟨fault, rfl⟩ := hrefused e hparsed
      exact ⟨fault, rfl⟩

end

theorem Call.eq_malformed_of_parse {source : Text} {position : Position} {e : TemplateError}
    (h : Call.parse position source = .error e) : ∃ fault, e = .malformed fault position := by
  rw [Call.parse] at h
  split at h
  · next fault _ => exact ⟨fault, (Except.error.inj h).symm⟩
  · split at h
    · cases h
    · exact ⟨_, (Except.error.inj h).symm⟩

theorem PartialCall.eq_malformed_of_parse {source : Text} {position : Position} {e : TemplateError}
    (h : PartialCall.parse position source = .error e) :
    ∃ fault, e = .malformed fault position := by
  rw [PartialCall.parse] at h
  split at h
  · next fault _ => exact ⟨fault, (Except.error.inj h).symm⟩
  · split at h
    · cases h
    · exact ⟨_, (Except.error.inj h).symm⟩

/-- **Parameter lists are read by their grammar**, those of calls as well as those of partial
tags. -/
theorem parameters_by_grammar (source : Text) (position : Position) :
    ReadsByGrammar source position CallTree.yield CallTree.pathWords (CallTree.call source)
      (Call.parse position source) ∧
    ReadsByGrammar source position PartialTree.yield PartialTree.pathWords
      (PartialTree.partialCall source) (PartialCall.parse position source) :=
  ⟨.of_sound_of_complete (fun _ hc => CallTree.exists_of_parse hc)
    (fun _ _ hlex hc => CallTree.parse_of_lex hlex hc position)
    (fun _ _ => CallTree.eq_of_yield_eq) CallTree.exists_call_iff
    fun _ => Call.eq_malformed_of_parse,
  .of_sound_of_complete (fun _ hc => PartialTree.exists_of_parse hc)
    (fun _ _ hlex hc => PartialTree.parse_of_lex hlex hc position)
    (fun _ _ => PartialTree.eq_of_yield_eq) PartialTree.exists_partialCall_iff
    fun _ => PartialCall.eq_malformed_of_parse⟩

end Stencil
