import Stencil.Expr.Parse
import Stencil.Proofs.Expr.Token

/-!
# Printing a parameter list and reading it back

Every expression keeps its source, so printing a call is a matter of spacing: the name, a space in
front of each parameter, and the named parameters last (`Call.print`).  An expression is *canonical*
if its source is what printing it gives: a path or a literal is a single token that stands for it,
and a call in parentheses is printed from canonical parts (`Expr.IsCanonical`).

`Call.parse_print` and `PartialCall.parse_print` say that what is printed of canonical parts is read
back as those parts, whatever the depth of the nesting.

The proof follows the reader through the text.  `ArgReader.readRest before t r` is the reader `r`
after the rest `t` of a source that begins with `before`, and each lemma here moves the front of `t`
behind `before`: a blank, a token, a parameter (`Expr.IsCanonical.reads`), all parameters
(`ArgReader.readRest_arguments`).  A parameter in parentheses has the stretch of the source between
its parentheses as its own source, and with `before` at hand that stretch can be named
(`ArgReader.slice_append`).
-/

set_option autoImplicit false

namespace Stencil

/-! ## Printing -/

/-- What is printed of some items, with a space in front of each. -/
def spaced {α : Type} (print : α → Text) (items : List α) : Text :=
  items.flatMap fun a => ' ' :: print a

/-- A named parameter as it is printed. -/
def printNamed (b : Text × Expr) : Text :=
  b.1 ++ '=' :: b.2.source

/-- The parameters of a tag as they are printed, the named ones last. -/
def printArguments (params : List Expr) (named : List (Text × Expr)) : Text :=
  spaced Expr.source params ++ spaced printNamed named

/-- A call as it is printed. -/
def Call.print (c : Call) : Text :=
  c.head.source ++ printArguments c.params c.named

/-- The content of a partial tag as it is printed. -/
def PartialCall.print (c : PartialCall) : Text :=
  c.name.source ++ printArguments c.context.toList c.named

/-- A call as a parameter: it is printed in parentheses. -/
def Call.toExpr (c : Call) : Expr :=
  .call ('(' :: (c.print ++ [')'])) c.head c.params c.named

/-! ## Canonical expressions -/

/-- A path is canonical if its source is one word, which is no keyword, and stands for the path. -/
structure Path.IsCanonical (p : Path) : Prop where
  /-- The source is one word. -/
  read? : Lexeme.read? p.source = some (.word p.source, [])
  /-- The source is no keyword. -/
  ofKeyword? : Literal.ofKeyword? p.source = none
  /-- The source stands for the path. -/
  parse : Path.parse p.source = .ok p

/-- An expression is canonical if its source is what printing it gives. -/
inductive Expr.IsCanonical : Expr → Prop
  /-- A path. -/
  | path {p : Path} (h : p.IsCanonical) : IsCanonical (.path p)
  /-- A literal, which is a single token. -/
  | literal {source : Text} {value : Literal} {lexeme : Lexeme}
      (hread : Lexeme.read? source = some (lexeme, []))
      (hvalue : Expr.ofLexeme? lexeme = some (.ok (.literal source value))) :
      IsCanonical (.literal source value)
  /-- A call in parentheses with canonical parts. -/
  | call {c : Call} (hhead : c.head.IsCanonical) (hparams : ∀ e ∈ c.params, e.IsCanonical)
      (hkeys : ∀ b ∈ c.named, Lexeme.IsKey b.1) (hvalues : ∀ b ∈ c.named, b.2.IsCanonical) :
      IsCanonical c.toExpr

/-- A call is canonical if its parts are. -/
structure Call.IsCanonical (c : Call) : Prop where
  /-- The name is canonical. -/
  head : c.head.IsCanonical
  /-- The positional parameters are canonical. -/
  params : ∀ e ∈ c.params, e.IsCanonical
  /-- The names of the named parameters may be keys. -/
  keys : ∀ b ∈ c.named, Lexeme.IsKey b.1
  /-- The values of the named parameters are canonical. -/
  values : ∀ b ∈ c.named, b.2.IsCanonical

/-- The name of a partial is canonical if it is a single token that stands for it, or a canonical
call in parentheses. -/
inductive Expr.IsPartialName : Expr → Prop
  /-- A name. -/
  | literal {source : Text} {value : Literal} {lexeme : Lexeme}
      (hread : Lexeme.read? source = some (lexeme, []))
      (hname : Expr.partialName? lexeme = some (.literal source value)) :
      IsPartialName (.literal source value)
  /-- A call that answers the name. -/
  | call {c : Call} (h : c.IsCanonical) : IsPartialName c.toExpr

/-- The content of a partial tag is canonical if its parts are. -/
structure PartialCall.IsCanonical (c : PartialCall) : Prop where
  /-- The name is canonical. -/
  name : c.name.IsPartialName
  /-- The context is canonical. -/
  context : ∀ e ∈ c.context.toList, e.IsCanonical
  /-- The names of the bindings may be keys. -/
  keys : ∀ b ∈ c.named, Lexeme.IsKey b.1
  /-- The values of the bindings are canonical. -/
  values : ∀ b ∈ c.named, b.2.IsCanonical

/-! ## Lexing one token after the other -/

theorem lexFrom_blank {c : Char} (hc : isBlank c = true) (offset : Nat) (t : Text) :
    lexFrom offset (c :: t) = lexFrom (offset + 1) t := by
  rw [lexFrom, if_pos hc]

theorem lexFrom_token {t rest : Text} {lexeme : Lexeme} (h : Lexeme.read? t = some (lexeme, rest))
    (offset : Nat) :
    lexFrom offset t =
      (lexFrom (offset + lexeme.source.length) rest).map
        (⟨lexeme, offset, offset + lexeme.source.length⟩ :: ·) := by
  obtain _ | ⟨c, t⟩ := t
  · exact absurd h (by simp [Lexeme.read?])
  have hc := Lexeme.isBlank_of_read? h
  rw [lexFrom, if_neg (by rw [hc]; decide)]
  split
  · next hnone => rw [hnone] at h; exact absurd h (by simp)
  · next lexeme' after hsome =>
    rw [hsome] at h
    obtain ⟨rfl, rfl⟩ := Prod.mk.inj (Option.some.inj h)
    rfl

namespace ArgReader

/-- The reader after the rest `t` of a source that begins with `before`. -/
def readRest (before t : Text) (r : ArgReader) : Except SyntaxFault ArgReader :=
  match lexFrom before.length t with
  | .error fault =>
    .error (.arguments (.unexpectedCharacter fault.char fault.offset) (before ++ t))
  | .ok tokens => tokens.foldlM (step (before ++ t)) r

theorem readRest_nil (before : Text) (r : ArgReader) : readRest before [] r = .ok r := by
  rw [readRest, lexFrom]
  rfl

theorem readRest_blank {c : Char} (hc : isBlank c = true) (before t : Text) (r : ArgReader) :
    readRest before (c :: t) r = readRest (before ++ [c]) t r := by
  rw [readRest, lexFrom_blank hc, readRest, List.length_append, List.append_assoc]
  rfl

theorem readRest_token {before t rest : Text} {lexeme : Lexeme} {r r' : ArgReader}
    (h : Lexeme.read? t = some (lexeme, rest))
    (hstep : step (before ++ t) r
      ⟨lexeme, before.length, (before ++ lexeme.source).length⟩ = .ok r') :
    readRest before t r = readRest (before ++ lexeme.source) rest r' := by
  have ht : before ++ t = before ++ lexeme.source ++ rest := by
    rw [(Lexeme.append_of_read? h).1, List.append_assoc]
  rw [List.length_append] at hstep
  rw [readRest, lexFrom_token h, readRest, ← ht, List.length_append]
  cases lexFrom (before.length + lexeme.source.length) rest with
  | error fault => rfl
  | ok tokens =>
    show (⟨lexeme, before.length, before.length + lexeme.source.length⟩ :: tokens).foldlM
      (step (before ++ t)) r = _
    rw [List.foldlM_cons, hstep]
    rfl

end ArgReader

/-! ## One step of the reader -/

/-- Whether the name that a group belongs to has been read. -/
def ArgHead.IsKnown : ArgHead → Prop
  | .call _ | .partialTag _ => True
  | .callAwaited | .partialAwaited => False

theorem ArgHead.IsKnown.eq_call_or_eq_partialTag {head : ArgHead} (h : head.IsKnown) :
    (∃ path, head = .call path) ∨ ∃ name, head = .partialTag name := by
  cases head with
  | call path => exact .inl ⟨path, rfl⟩
  | partialTag name => exact .inr ⟨name, rfl⟩
  | callAwaited | partialAwaited => exact h.elim

/-- A group takes a parameter if its name is known, unless a positional parameter would come behind
a named one. -/
structure ArgGroup.TakesValue (g : ArgGroup) : Prop where
  /-- The name is known. -/
  head : g.head.IsKnown
  /-- A named parameter is awaited, or there is none yet. -/
  order : g.pending = none → g.named = []

theorem ArgGroup.TakesValue.refusal? {g : ArgGroup} (h : g.TakesValue) (lexeme : Lexeme) :
    g.refusal? lexeme = none := by
  rw [ArgGroup.refusal?, if_neg]
  rintro ⟨hpending, hnamed⟩
  exact hnamed (h.order (Option.isNone_iff_eq_none.1 hpending))

namespace ArgGroup

theorem add_positional {head : ArgHead} (h : head.IsKnown) (params : List Expr) (e : Expr) :
    add ⟨head, params, [], none⟩ e = ⟨head, params ++ [e], [], none⟩ := by
  obtain ⟨path, rfl⟩ | ⟨name, rfl⟩ := h.eq_call_or_eq_partialTag <;> rfl

theorem add_named {head : ArgHead} (h : head.IsKnown) (params : List Expr)
    (named : List (Text × Expr)) (key : Text) (e : Expr) :
    add ⟨head, params, named, some key⟩ e = ⟨head, params, named ++ [(key, e)], none⟩ := by
  obtain ⟨path, rfl⟩ | ⟨name, rfl⟩ := h.eq_call_or_eq_partialTag <;> rfl

end ArgGroup

namespace ArgReader

variable {source : Text} {r : ArgReader} {start stop : Nat}

/-- Where a value may stand, the reader takes a token that writes one, unless it is used as a path
and is none. -/
theorem step_ofLexeme? (h : r.inner.TakesValue) {lexeme : Lexeme} {value : Except SyntaxFault Expr}
    (hvalue : Expr.ofLexeme? lexeme = some value) :
    step source r ⟨lexeme, start, stop⟩ = value.map r.add := by
  obtain ⟨path, hr⟩ | ⟨name, hr⟩ := h.head.eq_call_or_eq_partialTag
  all_goals
    cases lexeme with
    | opening | closing | key name => exact absurd hvalue (by simp [Expr.ofLexeme?])
    | quoted raw | number raw | word raw => simp [step, hr, h.refusal?, hvalue]

theorem step_value (h : r.inner.TakesValue) {lexeme : Lexeme} {e : Expr}
    (he : Expr.ofLexeme? lexeme = some (.ok e)) :
    step source r ⟨lexeme, start, stop⟩ = .ok (r.add e) :=
  step_ofLexeme? h he

theorem step_opening (h : r.inner.TakesValue) :
    step source r ⟨.opening, start, stop⟩ = .ok (r.opened start) := by
  obtain ⟨path, hr⟩ | ⟨name, hr⟩ := h.head.eq_call_or_eq_partialTag <;>
    simp [step, hr, h.refusal?]

theorem step_key {head : ArgHead} (h : head.IsKnown) (params : List Expr)
    (named : List (Text × Expr)) (outer : List (ArgGroup × Nat)) (key : Text) :
    step source ⟨⟨head, params, named, none⟩, outer⟩ ⟨.key key, start, stop⟩ =
      .ok ⟨⟨head, params, named, some key⟩, outer⟩ := by
  obtain ⟨path, rfl⟩ | ⟨name, rfl⟩ := h.eq_call_or_eq_partialTag <;> rfl

theorem step_head {p : Path} (h : p.IsCanonical) (outer : List (ArgGroup × Nat)) :
    step source ⟨.empty .callAwaited, outer⟩ ⟨.word p.source, start, stop⟩ =
      .ok ⟨.empty (.call p), outer⟩ := by
  simp [step, ArgGroup.empty, h.ofKeyword?, h.parse, Except.map]

theorem step_closing (path : Path) (params : List Expr) (named : List (Text × Expr))
    (group : ArgGroup) (offset : Nat) (outer : List (ArgGroup × Nat)) :
    step source ⟨⟨.call path, params, named, none⟩, (group, offset) :: outer⟩
        ⟨.closing, start, stop⟩ =
      .ok ⟨group.add (.call (slice source offset stop) path params named), outer⟩ := rfl

theorem step_partialName {lexeme : Lexeme} {e : Expr} (h : Expr.partialName? lexeme = some e) :
    step source ⟨.empty .partialAwaited, []⟩ ⟨lexeme, start, stop⟩ =
      .ok ⟨.empty (.partialTag e), []⟩ := by
  cases lexeme with
  | opening | closing | key name => exact absurd h (by simp [Expr.partialName?])
  | quoted raw | number raw | word raw =>
    obtain rfl := Option.some.inj h
    rfl

/-- The stretch of a source behind `before`. -/
theorem slice_append (before t rest : Text) :
    slice (before ++ (t ++ rest)) before.length (before ++ t).length = t := by
  rw [slice, List.drop_left, List.length_append, Nat.add_sub_cancel_left, List.take_left]

/-! ## Parameters one after the other -/

/-- Wherever a parameter may stand, the source of an expression is read as that expression. -/
structure Reads (e : Expr) : Prop where
  /-- In front of the source, an equals sign makes a key. -/
  ne_equals : ∃ c t, e.source = c :: t ∧ c ≠ '='
  /-- The source is read as the expression. -/
  readRest : ∀ (before rest : Text) (r : ArgReader), r.inner.TakesValue →
    Lexeme.endsNumber rest = true →
      readRest before (e.source ++ rest) r = readRest (before ++ e.source) rest (r.add e)

/-- Printed items begin with a space, so a token may stand before them. -/
theorem endsNumber_spaced {α : Type} (print : α → Text) (items : List α) {rest : Text}
    (hrest : Lexeme.endsNumber rest = true) :
    Lexeme.endsNumber (spaced print items ++ rest) = true := by
  cases items with
  | nil => exact hrest
  | cons a items => rfl

theorem endsNumber_printArguments (params : List Expr) (named : List (Text × Expr)) {rest : Text}
    (hrest : Lexeme.endsNumber rest = true) :
    Lexeme.endsNumber (printArguments params named ++ rest) = true := by
  rw [printArguments, List.append_assoc]
  exact endsNumber_spaced _ _ (endsNumber_spaced _ _ hrest)

/-- The space in front of an item is passed over. -/
theorem readRest_spaced_cons {α : Type} (print : α → Text) (a : α) (items : List α)
    (before rest : Text) (r : ArgReader) :
    readRest before (spaced print (a :: items) ++ rest) r =
      readRest (before ++ [' ']) (print a ++ (spaced print items ++ rest)) r := by
  rw [spaced, List.flatMap_cons, List.cons_append, List.cons_append, List.append_assoc,
    readRest_blank (by decide), spaced]

/-- What has been passed over of some items, when the first and then the others have been. -/
theorem append_spaced_cons {α : Type} (print : α → Text) (a : α) (items : List α) (before : Text) :
    before ++ spaced print (a :: items) = before ++ [' '] ++ print a ++ spaced print items := by
  simp only [spaced, List.flatMap_cons, List.append_assoc, List.cons_append, List.nil_append]

theorem readRest_params {head : ArgHead} (hhead : head.IsKnown) {params : List Expr}
    (hparams : ∀ e ∈ params, Reads e) {rest : Text} (hrest : Lexeme.endsNumber rest = true)
    (before : Text) (earlier : List Expr) (outer : List (ArgGroup × Nat)) :
    readRest before (spaced Expr.source params ++ rest) ⟨⟨head, earlier, [], none⟩, outer⟩ =
      readRest (before ++ spaced Expr.source params) rest
        ⟨⟨head, earlier ++ params, [], none⟩, outer⟩ := by
  induction params generalizing before earlier with
  | nil => simp [spaced]
  | cons e params ih =>
    have he := hparams e List.mem_cons_self
    have hmore := endsNumber_spaced Expr.source params hrest
    rw [readRest_spaced_cons, he.readRest _ _ _ ⟨hhead, fun _ => rfl⟩ hmore, add,
      ArgGroup.add_positional hhead, ih fun e he => hparams e (List.mem_cons_of_mem _ he),
      append_spaced_cons, List.append_assoc earlier, List.singleton_append]

theorem readRest_named {head : ArgHead} (hhead : head.IsKnown) (params : List Expr)
    {named : List (Text × Expr)} (hkeys : ∀ b ∈ named, Lexeme.IsKey b.1)
    (hvalues : ∀ b ∈ named, Reads b.2) {rest : Text} (hrest : Lexeme.endsNumber rest = true)
    (before : Text) (earlier : List (Text × Expr)) (outer : List (ArgGroup × Nat)) :
    readRest before (spaced printNamed named ++ rest) ⟨⟨head, params, earlier, none⟩, outer⟩ =
      readRest (before ++ spaced printNamed named) rest
        ⟨⟨head, params, earlier ++ named, none⟩, outer⟩ := by
  induction named generalizing before earlier with
  | nil => simp [spaced]
  | cons b named ih =>
    have hvalue := hvalues b List.mem_cons_self
    have hmore := endsNumber_spaced printNamed named hrest
    have hkey : Lexeme.read? (printNamed b ++ (spaced printNamed named ++ rest)) =
        some (.key b.1, b.2.source ++ (spaced printNamed named ++ rest)) := by
      obtain ⟨c, t, hsource, hc⟩ := hvalue.ne_equals
      rw [printNamed, List.append_assoc, List.cons_append, hsource, List.cons_append]
      exact Lexeme.read?_key (hkeys b List.mem_cons_self) hc _
    have hprinted : ∀ t, t ++ (Lexeme.key b.1).source ++ b.2.source = t ++ printNamed b := by
      intro t
      simp only [Lexeme.source, printNamed, List.append_assoc, List.cons_append, List.nil_append]
    rw [readRest_spaced_cons, readRest_token hkey (step_key hhead params earlier outer b.1),
      hvalue.readRest _ _ _ ⟨hhead, fun h => absurd h (by simp)⟩ hmore, add,
      ArgGroup.add_named hhead, ih (fun b hb => hkeys b (List.mem_cons_of_mem _ hb))
        fun b hb => hvalues b (List.mem_cons_of_mem _ hb),
      append_spaced_cons, hprinted, List.append_assoc earlier, List.singleton_append]

/-- Each parameter of a tag is read where it may stand. -/
structure ReadsEach (params : List Expr) (named : List (Text × Expr)) : Prop where
  /-- The positional parameters are read. -/
  params : ∀ e ∈ params, Reads e
  /-- The names of the named parameters may be keys. -/
  keys : ∀ b ∈ named, Lexeme.IsKey b.1
  /-- The values of the named parameters are read. -/
  values : ∀ b ∈ named, Reads b.2

/-- All parameters are read, the positional ones first. -/
theorem readRest_arguments {head : ArgHead} (hhead : head.IsKnown) {params : List Expr}
    {named : List (Text × Expr)} (h : ReadsEach params named) {rest : Text}
    (hrest : Lexeme.endsNumber rest = true) (before : Text) (outer : List (ArgGroup × Nat)) :
    readRest before (printArguments params named ++ rest) ⟨.empty head, outer⟩ =
      readRest (before ++ printArguments params named) rest
        ⟨⟨head, params, named, none⟩, outer⟩ := by
  have hnamed := endsNumber_spaced printNamed named hrest
  rw [printArguments, List.append_assoc, ArgGroup.empty, readRest_params hhead h.params hnamed,
    readRest_named hhead _ h.keys h.values hrest, List.append_assoc, List.nil_append,
    List.nil_append]

/-! ## Calls -/

/-- A call is read where its name is awaited. -/
theorem readRest_call {c : Call} (hhead : c.head.IsCanonical) (h : ReadsEach c.params c.named)
    {rest : Text} (hrest : Lexeme.endsNumber rest = true) (before : Text)
    (outer : List (ArgGroup × Nat)) :
    readRest before (c.print ++ rest) ⟨.empty .callAwaited, outer⟩ =
      readRest (before ++ c.print) rest ⟨⟨.call c.head, c.params, c.named, none⟩, outer⟩ := by
  have hmore := endsNumber_printArguments c.params c.named hrest
  have hname := Lexeme.read?_append hmore hhead.read?
  have hknown : (ArgHead.call c.head).IsKnown := trivial
  have hargs := readRest_arguments hknown h hrest
  rw [Call.print, List.append_assoc, readRest_token hname (step_head hhead outer), hargs,
    List.append_assoc]
  rfl

/-- A call in parentheses is read where its opening parenthesis may stand. -/
theorem readRest_group {c : Call} (hhead : c.head.IsCanonical) (h : ReadsEach c.params c.named)
    (before rest : Text) {r : ArgReader}
    (hstep : ∀ source start stop, step source r ⟨.opening, start, stop⟩ = .ok (r.opened start)) :
    readRest before (c.toExpr.source ++ rest) r =
      readRest (before ++ c.toExpr.source) rest (r.add c.toExpr) := by
  have hclosing : Lexeme.endsNumber (')' :: rest) = true := rfl
  have hcall := readRest_call hhead h hclosing (before ++ ['('])
    ((r.inner, before.length) :: r.outer)
  have hslice : slice (before ++ ['('] ++ c.print ++ ')' :: rest) before.length
      (before ++ ['('] ++ c.print ++ [')']).length = c.toExpr.source := by
    have hstretch := slice_append before c.toExpr.source rest
    simpa only [Call.toExpr, Expr.source, List.append_assoc, List.cons_append,
      List.nil_append] using hstretch
  have hprinted : c.toExpr.source ++ rest = '(' :: (c.print ++ ')' :: rest) := by
    simp only [Call.toExpr, Expr.source, List.append_assoc, List.cons_append, List.nil_append]
  calc readRest before (c.toExpr.source ++ rest) r
      = readRest (before ++ ['(']) (c.print ++ ')' :: rest) (r.opened before.length) := by
        rw [hprinted]
        exact readRest_token rfl (hstep _ _ _)
    _ = readRest (before ++ ['('] ++ c.print) (')' :: rest)
          ⟨⟨.call c.head, c.params, c.named, none⟩, (r.inner, before.length) :: r.outer⟩ := hcall
    _ = readRest (before ++ ['('] ++ c.print ++ [')']) rest (r.add c.toExpr) := by
        have hread : Lexeme.read? (')' :: rest) = some (.closing, rest) := rfl
        refine readRest_token hread ?_
        show step _ _ ⟨.closing, _, (before ++ ['('] ++ c.print ++ [')']).length⟩ = _
        rw [step_closing, hslice]
        rfl
    _ = readRest (before ++ c.toExpr.source) rest (r.add c.toExpr) := by
        simp only [Call.toExpr, Expr.source, List.append_assoc, List.cons_append, List.nil_append]

end ArgReader

/-! ## Canonical expressions are read back -/

/-- The source of a canonical path is a word that stands for the path. -/
theorem Path.IsCanonical.ofLexeme? {p : Path} (h : p.IsCanonical) :
    Expr.ofLexeme? (.word p.source) = some (.ok (.path p)) := by
  rw [Expr.ofLexeme?, h.ofKeyword?, h.parse]
  rfl

/-- A token that stands for an expression is read as that expression. -/
theorem ArgReader.reads_of_read? {e : Expr} {lexeme : Lexeme}
    (hread : Lexeme.read? e.source = some (lexeme, []))
    (hvalue : Expr.ofLexeme? lexeme = some (.ok e)) : Reads e := by
  refine ⟨?_, fun before rest r htakes hrest => ?_⟩
  · cases hsource : e.source with
    | nil => rw [hsource] at hread; exact absurd hread (by simp [Lexeme.read?])
    | cons c t => rw [hsource] at hread; exact ⟨c, t, rfl, Lexeme.ne_equals_of_read? hread⟩
  · rw [readRest_token (Lexeme.read?_append hrest hread) (step_value htakes hvalue),
      Lexeme.eq_source_of_read? hread]

/-- **A canonical expression is read back** wherever a parameter may stand. -/
theorem Expr.IsCanonical.reads {e : Expr} (h : e.IsCanonical) : ArgReader.Reads e := by
  induction h with
  | path h => exact ArgReader.reads_of_read? h.read? h.ofLexeme?
  | literal hread hvalue => exact ArgReader.reads_of_read? hread hvalue
  | call hhead _ hkeys _ hparams hvalues =>
    refine ⟨⟨'(', _, rfl, by decide⟩, fun before rest r htakes _ => ?_⟩
    exact ArgReader.readRest_group hhead ⟨hparams, hkeys, hvalues⟩ before rest
      fun _ _ _ => ArgReader.step_opening htakes

theorem Call.IsCanonical.readsEach {c : Call} (h : c.IsCanonical) :
    ArgReader.ReadsEach c.params c.named :=
  ⟨fun e he => (h.params e he).reads, h.keys, fun b hb => (h.values b hb).reads⟩

theorem PartialCall.IsCanonical.readsEach {c : PartialCall} (h : c.IsCanonical) :
    ArgReader.ReadsEach c.context.toList c.named :=
  ⟨fun e he => (h.context e he).reads, h.keys, fun b hb => (h.values b hb).reads⟩

/-! ## Whole tags -/

/-- A group that has been read to its end is what the parameters are read as. -/
theorem ArgGroup.read_of_readRest {head : ArgHead} {t : Text} {r : ArgReader} {g : ArgGroup}
    (h : ArgReader.readRest [] t ⟨.empty head, []⟩ = .ok r) (hfinish : r.finish = .ok g) :
    ArgGroup.read head t = .ok g := by
  rw [ArgReader.readRest] at h
  rw [ArgGroup.read, lex]
  rw [List.length_nil, List.nil_append] at h
  cases hlex : lexFrom 0 t with
  | error fault => rw [hlex] at h; exact absurd h (by simp)
  | ok tokens =>
    rw [hlex] at h
    have hfold : tokens.foldlM (ArgReader.step t) ⟨.empty head, []⟩ = .ok r := h
    simp only [hfold, hfinish]

/-- **A call is read back as it was printed.** -/
theorem Call.parse_print {c : Call} (h : c.IsCanonical) (position : Position) :
    Call.parse position c.print = .ok c := by
  have hend : Lexeme.endsNumber [] = true := rfl
  have hread := ArgReader.readRest_call h.head h.readsEach hend [] []
  rw [List.append_nil, ArgReader.readRest_nil] at hread
  rw [Call.parse, ArgGroup.read_of_readRest hread rfl]

/-- The name of a partial is read where it is awaited. -/
theorem Expr.IsPartialName.readRest {e : Expr} (h : e.IsPartialName) (before : Text) {rest : Text}
    (hrest : Lexeme.endsNumber rest = true) :
    ArgReader.readRest before (e.source ++ rest) ⟨.empty .partialAwaited, []⟩ =
      ArgReader.readRest (before ++ e.source) rest ⟨.empty (.partialTag e), []⟩ := by
  cases h with
  | @literal source value lexeme hread hname =>
    have hsource : source = lexeme.source := Lexeme.eq_source_of_read? hread
    show ArgReader.readRest before (source ++ rest) _ = ArgReader.readRest (before ++ source) rest _
    rw [ArgReader.readRest_token (Lexeme.read?_append hrest hread)
      (ArgReader.step_partialName hname), hsource]
  | call h =>
    exact ArgReader.readRest_group h.head h.readsEach before rest fun _ _ _ => rfl

/-- **The content of a partial tag is read back as it was printed.** -/
theorem PartialCall.parse_print {c : PartialCall} (h : c.IsCanonical) (position : Position) :
    PartialCall.parse position c.print = .ok c := by
  have hknown : (ArgHead.partialTag c.name).IsKnown := trivial
  have hend : Lexeme.endsNumber [] = true := rfl
  have hargs := ArgReader.readRest_arguments hknown h.readsEach hend c.name.source []
  have hmore := ArgReader.endsNumber_printArguments c.context.toList c.named hend
  have hread := h.name.readRest [] hmore
  rw [List.nil_append, hargs, ArgReader.readRest_nil, ← List.append_assoc, List.append_nil] at hread
  have hfinish : ArgReader.finish ⟨⟨.partialTag c.name, c.context.toList, c.named, none⟩, []⟩ =
      .ok ⟨.partialTag c.name, c.context.toList, c.named, none⟩ := by
    cases c.context <;> rfl
  rw [PartialCall.parse, PartialCall.print, ArgGroup.read_of_readRest hread hfinish]
  obtain ⟨name, context, named⟩ := c
  cases context <;> rfl

/-! ## The edges of what is printed -/

/-- Items behind a text leave no blank at its end. -/
theorem Text.IsTrim.append_spaced {α : Type} {print : α → Text} {items : List α}
    (hitems : ∀ a ∈ items, (print a).IsTrim) {t : Text} (h : t.IsTrim) :
    (t ++ spaced print items).IsTrim := by
  induction items generalizing t with
  | nil => rwa [spaced, List.flatMap_nil, List.append_nil]
  | cons a items ih =>
    have hfirst := h.append (hitems a List.mem_cons_self) [' ']
    have hall := ih (fun b hb => hitems b (List.mem_cons_of_mem _ hb)) hfirst
    rwa [← List.append_assoc, ← ArgReader.append_spaced_cons] at hall

theorem isTrim_printNamed {b : Text × Expr} (h : Lexeme.IsKey b.1) (hvalue : b.2.source.IsTrim) :
    (printNamed b).IsTrim := by
  obtain ⟨c, rest, hkey, hc, -⟩ := h
  have hblank : isBlank c = false := by
    by_contra hb
    rw [Bool.not_eq_false] at hb
    exact absurd hc (by rw [Lexeme.isKeyStart_of_isBlank hb]; decide)
  have hfirst : Text.IsTrim [c] := ⟨⟨c, [], rfl, hblank⟩, ⟨[], c, rfl, hblank⟩⟩
  have hall := hfirst.append hvalue (rest ++ ['='])
  rw [printNamed, hkey]
  simpa only [List.append_assoc, List.cons_append, List.nil_append] using hall

theorem Call.isTrim_source_toExpr (c : Call) : c.toExpr.source.IsTrim :=
  ⟨⟨'(', _, rfl, by decide⟩, ⟨'(' :: c.print, ')', rfl, by decide⟩⟩

theorem Expr.IsCanonical.isTrim_source {e : Expr} (h : e.IsCanonical) : e.source.IsTrim := by
  cases h with
  | path h => exact Lexeme.isTrim_of_read? h.read?
  | literal hread hvalue => exact Lexeme.isTrim_of_read? hread
  | call => exact Call.isTrim_source_toExpr _

theorem Expr.IsPartialName.isTrim_source {e : Expr} (h : e.IsPartialName) : e.source.IsTrim := by
  cases h with
  | literal hread hname => exact Lexeme.isTrim_of_read? hread
  | call => exact Call.isTrim_source_toExpr _

theorem isTrim_append_printArguments {t : Text} (h : t.IsTrim) {params : List Expr}
    {named : List (Text × Expr)} (hparams : ∀ e ∈ params, e.IsCanonical)
    (hkeys : ∀ b ∈ named, Lexeme.IsKey b.1) (hvalues : ∀ b ∈ named, b.2.IsCanonical) :
    (t ++ printArguments params named).IsTrim := by
  have hpositional := h.append_spaced fun e he => (hparams e he).isTrim_source
  have hall := hpositional.append_spaced fun b hb =>
    isTrim_printNamed (hkeys b hb) (hvalues b hb).isTrim_source
  rwa [List.append_assoc] at hall

/-- What is printed of a call neither begins nor ends with a blank. -/
theorem Call.IsCanonical.isTrim_print {c : Call} (h : c.IsCanonical) : c.print.IsTrim :=
  isTrim_append_printArguments (Lexeme.isTrim_of_read? h.head.read?) h.params h.keys h.values

/-- What is printed of a partial tag neither begins nor ends with a blank. -/
theorem PartialCall.IsCanonical.isTrim_print {c : PartialCall} (h : c.IsCanonical) :
    c.print.IsTrim :=
  isTrim_append_printArguments h.name.isTrim_source h.context h.keys h.values

/-- The first word of a printed call is its name. -/
theorem Call.IsCanonical.read?_print {c : Call} (h : c.IsCanonical) :
    Lexeme.read? c.print = some (.word c.head.source, printArguments c.params c.named) := by
  have hend : Lexeme.endsNumber [] = true := rfl
  have hargs := ArgReader.endsNumber_printArguments c.params c.named hend
  rw [List.append_nil] at hargs
  exact Lexeme.read?_append hargs h.head.read?

/-! ## Texts in quotes -/

/-- What stands for a text between quotes: the quote and the backslash stand behind a backslash. -/
def Literal.escapeWith (quote : Char) (t : Text) : Text :=
  t.flatMap fun c => if c = quote ∨ c = '\\' then ['\\', c] else [c]

/-- A text as a literal. -/
def Literal.quoteWith (quote : Char) (t : Text) : Text :=
  quote :: (escapeWith quote t ++ [quote])

theorem Literal.escapeWith_cons_of_special {quote c : Char} (h : c = quote ∨ c = '\\') (t : Text) :
    escapeWith quote (c :: t) = '\\' :: c :: escapeWith quote t := by
  rw [escapeWith, List.flatMap_cons, if_pos h]
  rfl

theorem Literal.escapeWith_cons {quote c : Char} (h : ¬(c = quote ∨ c = '\\')) (t : Text) :
    escapeWith quote (c :: t) = c :: escapeWith quote t := by
  rw [escapeWith, List.flatMap_cons, if_neg h]
  rfl

/-- A text between quotes ends at the closing quote. -/
theorem readQuotedRest_escapeWith {quote : Char} (hquote : quote ≠ '\\') (hline : quote ≠ '\n')
    (t : Text) :
    Lexeme.readQuotedRest quote (Literal.escapeWith quote t ++ [quote]) =
      some (Literal.escapeWith quote t ++ [quote], []) := by
  induction t with
  | nil => exact (Lexeme.readQuotedRest_cons hquote []).trans (if_pos rfl)
  | cons c t ih =>
    by_cases hc : c = quote ∨ c = '\\'
    · have hbreak : c ≠ '\n' := by
        rcases hc with rfl | rfl
        · exact hline
        · decide
      rw [Literal.escapeWith_cons_of_special hc, List.cons_append, List.cons_append,
        Lexeme.readQuotedRest, if_neg hbreak, ih]
      rfl
    · rw [Literal.escapeWith_cons hc, List.cons_append,
        Lexeme.readQuotedRest_cons fun h => hc (.inr h), if_neg fun h => hc (.inl h), ih]
      rfl

theorem unescape_cons {c : Char} (hc : c ≠ '\\') (t : Text) :
    unescape (c :: t) = c :: unescape t := by
  rw [unescape]
  rintro d u rfl
  exact fun _ => hc rfl

theorem unquote_quoteWith (quote : Char) (t : Text) : unquote (Literal.quoteWith quote t) = t := by
  rw [unquote, Literal.quoteWith, List.drop_one, List.tail_cons, List.dropLast_concat]
  induction t with
  | nil => rfl
  | cons c t ih =>
    by_cases hc : c = quote ∨ c = '\\'
    · rw [Literal.escapeWith_cons_of_special hc, unescape, ih]
    · rw [Literal.escapeWith_cons hc, unescape_cons fun h => hc (.inr h), ih]

/-- A text in quotes is a single token. -/
theorem Lexeme.read?_quoteWith {quote : Char} (h : quote = '"' ∨ quote = '\'') (t : Text) :
    read? (Literal.quoteWith quote t) = some (.quoted (Literal.quoteWith quote t), []) := by
  have hquote : quote ≠ '\\' ∧ quote ≠ '\n' ∧ quote ≠ '(' ∧ quote ≠ ')' := by
    rcases h with rfl | rfl <;> decide
  rw [Literal.quoteWith, read?_cons hquote.2.2.1 hquote.2.2.2, readQuoted?, if_pos h,
    readQuotedRest_escapeWith hquote.1 hquote.2.1]
  rfl

/-- Every text has a canonical literal in either quote. -/
theorem Expr.isCanonical_quoteWith {quote : Char} (h : quote = '"' ∨ quote = '\'') (t : Text) :
    Expr.IsCanonical (.literal (Literal.quoteWith quote t) (.text t)) := by
  refine .literal (Lexeme.read?_quoteWith h t) ?_
  rw [Expr.ofLexeme?, unquote_quoteWith]

end Stencil
