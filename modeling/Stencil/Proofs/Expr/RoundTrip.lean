import Stencil.Proofs.Except
import Stencil.Proofs.Expr.Printing

/-!
# Every call that can be written down is read back

`Call.parse_print` asks for canonical parts, and what is canonical is told by the token at the
front of a source.  This module describes the same expressions the way they are put together: a
path and a number are texts that the lexer, given nothing else, takes as one token
(`Lexeme.IsAlone`), a text stands in either quote and is any text at all, and a call in parentheses
is put together from such parts (`Expr.IsWritten`).  The name of a partial may further stand in
brackets (`Expr.IsWrittenName`).

* `Lexeme.isAlone_iff` — a token that is alone is the first token of its source and leaves nothing.
* `Expr.IsWritten.isCanonical`, `Expr.IsWrittenName.isPartialName` — what is written is canonical.
* `parse_print_of_isWritten` — so calls and partial tags are read back as they were printed.
-/

set_option autoImplicit false

namespace Stencil

/-! ## Texts that are a single token -/

/-- Every token of a text starts behind the characters that stand before the text. -/
theorem le_start_of_lexFrom {offset : Nat} {t : Text} {tokens : List ArgToken}
    (h : lexFrom offset t = .ok tokens) {token : ArgToken} (htoken : token ∈ tokens) :
    offset ≤ token.start := by
  fun_induction lexFrom offset t generalizing tokens with
  | case1 offset =>
    obtain rfl := Except.ok.inj h
    exact absurd htoken List.not_mem_nil
  | case2 offset c rest hblank ih => exact (Nat.le_succ offset).trans (ih h htoken)
  | case3 offset c rest hblank hnone => exact absurd h (by simp)
  | case4 offset c rest hblank lexeme after hread stop shorter =>
    rename_i ih
    obtain ⟨later, hlater, rfl⟩ := Except.map_eq_ok.1 h
    rcases List.mem_cons.1 htoken with rfl | hmem
    · exact Nat.le_refl offset
    · exact (Nat.le_add_right offset _).trans (ih hlater hmem)

namespace Lexeme

/-- Whether the source of a token, given to the lexer by itself, is cut into that token only. -/
def IsAlone (lexeme : Lexeme) : Prop :=
  lex lexeme.source = .ok [⟨lexeme, 0, lexeme.source.length⟩]

/-- A token is alone exactly if it is the first token of its source and leaves nothing of it. -/
theorem isAlone_iff {lexeme : Lexeme} :
    lexeme.IsAlone ↔ read? lexeme.source = some (lexeme, []) := by
  constructor
  · intro h
    rw [IsAlone, lex] at h
    cases hsource : lexeme.source with
    | nil => rw [hsource, lexFrom] at h; exact absurd h (by simp)
    | cons c t =>
      rw [hsource, lexFrom] at h
      split at h
      · have hstart := le_start_of_lexFrom h (List.mem_singleton_self _)
        exact absurd hstart (by simp)
      split at h
      · exact absurd h (by simp)
      next lexeme' after hread =>
      obtain ⟨later, -, hlater⟩ := Except.map_eq_ok.1 h
      obtain ⟨hfirst, rfl⟩ := List.cons.inj hlater
      obtain ⟨rfl, -, hstop⟩ := ArgToken.mk.inj hfirst
      have hlength := congrArg List.length (append_of_read? hread).1
      rw [List.length_append] at hlength
      have hafter : after = [] := List.length_eq_zero_iff.1 (by omega)
      rw [hread, hafter]
  · intro h
    rw [IsAlone, lex, lexFrom_token h, lexFrom, Nat.zero_add]
    rfl

/-! ## Names in brackets -/

theorem readWord_true_append {name : Text} (h : ']' ∉ name) :
    readWord true (name ++ [']']) = (name ++ [']'], []) := by
  induction name with
  | nil => rfl
  | cons c name ih =>
    rw [List.mem_cons, not_or] at h
    obtain ⟨hc, hname⟩ := h
    have hinside : (c != ']') = true := bne_iff_ne.2 (Ne.symm hc)
    rw [List.cons_append, readWord, if_pos rfl, hinside]
    simp only [ih hname]

/-- At an opening bracket there is no token but a word. -/
theorem read?_bracket (t : Text) :
    read? ('[' :: t) = (readWord? ('[' :: t)).map fun r => (.word r.1, r.2) := by
  have hquoted : readQuoted? ('[' :: t) = none := rfl
  have hkey : readKey? ('[' :: t) = none := rfl
  have hdigit : ¬isDecimalDigit '[' = true := by decide +kernel
  have hnumber : readNumber? ('[' :: t) = none := by
    simp [readNumber?, readSign, hdigit]
  rw [read?_cons (by decide) (by decide), hquoted, hkey, hnumber]
  rfl

/-- A name in brackets is one word. -/
theorem read?_bracketed {name : Text} (h : ']' ∉ name) :
    read? ('[' :: (name ++ [']'])) = some (.word ('[' :: (name ++ [']'])), []) := by
  have hclosed : ']' ∈ name ++ [']'] := List.mem_append_right _ (List.mem_singleton_self _)
  have hword : readWord false ('[' :: (name ++ [']'])) = ('[' :: (name ++ [']']), []) := by
    simp [readWord, hclosed, readWord_true_append h]
  rw [read?_bracket, readWord?, hword]
  rfl

end Lexeme

theorem partialNameOf_bracketed {name : Text} (hne : name ≠ []) (h : ']' ∉ name) :
    partialNameOf ('[' :: (name ++ [']'])) = name := by
  have hinside : (('[' :: (name ++ [']'])).drop 1).dropLast = name := by
    rw [List.drop_one, List.tail_cons, List.dropLast_concat]
  have hlength := List.length_pos_iff.2 hne
  rw [partialNameOf, hinside, if_pos]
  refine ⟨?_, rfl, ?_, h⟩
  · simp only [List.length_cons, List.length_append, List.length_nil]
    omega
  · rw [← List.cons_append, List.getLast?_concat]

/-- A name that is not in brackets stands for itself. -/
theorem partialNameOf_eq_self {raw : Text}
    (h : ∀ name, name ≠ [] → ']' ∉ name → raw ≠ '[' :: (name ++ [']'])) :
    partialNameOf raw = raw := by
  rw [partialNameOf]
  split
  · next hbrackets =>
    obtain ⟨hlength, hfirst, hlast, hinside⟩ := hbrackets
    obtain ⟨t, rfl⟩ := List.head?_eq_some_iff.1 hfirst
    obtain rfl | ⟨name, c, rfl⟩ := t.eq_nil_or_concat'
    · exact absurd hlength (by simp)
    rw [← List.cons_append, List.getLast?_concat] at hlast
    obtain rfl := Option.some.inj hlast
    rw [List.drop_one, List.tail_cons, List.dropLast_concat] at hinside
    have hne : name ≠ [] := by
      rintro rfl
      exact absurd hlength (by simp)
    exact absurd rfl (h name hne hinside)
  · rfl

/-! ## What can be written -/

/-- A path can be written if it is read from a text that is a single word and no keyword. -/
structure Path.IsWritten (p : Path) : Prop where
  /-- The source is a single word. -/
  alone : (Lexeme.word p.source).IsAlone
  /-- The source is no keyword. -/
  ofKeyword? : Literal.ofKeyword? p.source = none
  /-- The source is read as the path. -/
  parse : Path.parse p.source = .ok p

/-- A quote in which a text may stand. -/
def Literal.IsQuote (quote : Char) : Prop :=
  quote = '"' ∨ quote = '\''

/-- The parameters that can be written. -/
inductive Expr.IsWritten : Expr → Prop
  /-- A path. -/
  | path {p : Path} (h : p.IsWritten) : IsWritten (.path p)
  /-- A number. -/
  | number {raw : Text} (h : (Lexeme.number raw).IsAlone) :
      IsWritten (.literal raw (.ofNumber raw))
  /-- A keyword. -/
  | keyword {raw : Text} {value : Literal} (h : Literal.ofKeyword? raw = some value) :
      IsWritten (.literal raw value)
  /-- Any text in quotes. -/
  | text {quote : Char} (h : Literal.IsQuote quote) (t : Text) :
      IsWritten (.literal (Literal.quoteWith quote t) (.text t))
  /-- A call in parentheses. -/
  | call {c : Call} (hhead : c.head.IsWritten) (hparams : ∀ e ∈ c.params, e.IsWritten)
      (hkeys : ∀ b ∈ c.named, Lexeme.IsKey b.1) (hvalues : ∀ b ∈ c.named, b.2.IsWritten) :
      IsWritten c.toExpr

/-- The calls that can be written. -/
structure Call.IsWritten (c : Call) : Prop where
  /-- The name can be written. -/
  head : c.head.IsWritten
  /-- The positional parameters can be written. -/
  params : ∀ e ∈ c.params, e.IsWritten
  /-- The names of the named parameters may be keys. -/
  keys : ∀ b ∈ c.named, Lexeme.IsKey b.1
  /-- The values of the named parameters can be written. -/
  values : ∀ b ∈ c.named, b.2.IsWritten

/-- The names of partials that can be written. -/
inductive Expr.IsWrittenName : Expr → Prop
  /-- Any text in quotes. -/
  | text {quote : Char} (h : Literal.IsQuote quote) (t : Text) :
      IsWrittenName (.literal (Literal.quoteWith quote t) (.text t))
  /-- A name in brackets. -/
  | bracketed {name : Text} (hne : name ≠ []) (h : ']' ∉ name) :
      IsWrittenName (.literal ('[' :: (name ++ [']'])) (.text name))
  /-- A word that is not a name in brackets. -/
  | word {raw : Text} (h : (Lexeme.word raw).IsAlone)
      (hplain : ∀ name, name ≠ [] → ']' ∉ name → raw ≠ '[' :: (name ++ [']'])) :
      IsWrittenName (.literal raw (.text raw))
  /-- A number. -/
  | number {raw : Text} (h : (Lexeme.number raw).IsAlone) :
      IsWrittenName (.literal raw (.text raw))
  /-- A call that answers the name. -/
  | call {c : Call} (h : c.IsWritten) : IsWrittenName c.toExpr

/-- The partial tags that can be written. -/
structure PartialCall.IsWritten (c : PartialCall) : Prop where
  /-- The name can be written. -/
  name : c.name.IsWrittenName
  /-- The context, if there is one, can be written. -/
  context : ∀ e ∈ c.context, e.IsWritten
  /-- The names of the bindings may be keys. -/
  keys : ∀ b ∈ c.named, Lexeme.IsKey b.1
  /-- The values of the bindings can be written. -/
  values : ∀ b ∈ c.named, b.2.IsWritten

/-! ## What can be written is canonical -/

theorem Path.IsWritten.isCanonical {p : Path} (h : p.IsWritten) : p.IsCanonical :=
  ⟨Lexeme.isAlone_iff.1 h.alone, h.ofKeyword?, h.parse⟩

/-- A keyword is a single word. -/
theorem Lexeme.read?_of_ofKeyword? {raw : Text} {value : Literal}
    (h : Literal.ofKeyword? raw = some value) : read? raw = some (.word raw, []) := by
  rw [Literal.ofKeyword?] at h
  split at h
  · next htrue => subst htrue; decide +kernel
  split at h
  · next hfalse => subst hfalse; decide +kernel
  split at h
  · next hnull => subst hnull; decide +kernel
  split at h
  · next hundefined => subst hundefined; decide +kernel
  · exact absurd h (by simp)

theorem Expr.IsWritten.isCanonical {e : Expr} (h : e.IsWritten) : e.IsCanonical := by
  induction h with
  | path h => exact .path h.isCanonical
  | number h => exact .literal (Lexeme.isAlone_iff.1 h) rfl
  | keyword h =>
    refine .literal (Lexeme.read?_of_ofKeyword? h) ?_
    rw [Expr.ofLexeme?, h]
  | text h t => exact Expr.isCanonical_quoteWith h t
  | call hhead _ hkeys _ hparams hvalues => exact .call hhead.isCanonical hparams hkeys hvalues

theorem Call.IsWritten.isCanonical {c : Call} (h : c.IsWritten) : c.IsCanonical :=
  ⟨h.head.isCanonical, fun e he => (h.params e he).isCanonical, h.keys,
    fun b hb => (h.values b hb).isCanonical⟩

theorem Expr.IsWrittenName.isPartialName {e : Expr} (h : e.IsWrittenName) : e.IsPartialName := by
  cases h with
  | text h t =>
    refine .literal (Lexeme.read?_quoteWith h t) ?_
    rw [Expr.partialName?, unquote_quoteWith]
  | bracketed hne h =>
    refine .literal (Lexeme.read?_bracketed h) ?_
    rw [Expr.partialName?, partialNameOf_bracketed hne h]
  | word h hplain =>
    refine .literal (Lexeme.isAlone_iff.1 h) ?_
    rw [Expr.partialName?, partialNameOf_eq_self hplain]
  | number h =>
    have hread := Lexeme.isAlone_iff.1 h
    refine .literal hread ?_
    rw [Expr.partialName?, partialNameOf_eq_self]
    rintro name hne hname rfl
    exact absurd (hread.symm.trans (Lexeme.read?_bracketed hname)) (by simp)
  | call h => exact .call h.isCanonical

theorem PartialCall.IsWritten.isCanonical {c : PartialCall} (h : c.IsWritten) : c.IsCanonical :=
  ⟨h.name.isPartialName, fun e he => (h.context e (Option.mem_toList.1 he)).isCanonical, h.keys,
    fun b hb => (h.values b hb).isCanonical⟩

/-! ## The round trip -/

/-- **Whatever can be written is read back as it was printed**: a call with its name, its parameters
and its named parameters in their order, and a partial tag with its name, its context and its
bindings. -/
theorem parse_print_of_isWritten (position : Position) :
    (∀ c : Call, c.IsWritten → Call.parse position c.print = .ok c) ∧
      (∀ c : PartialCall, c.IsWritten → PartialCall.parse position c.print = .ok c) :=
  ⟨fun _ h => Call.parse_print h.isCanonical position,
    fun _ h => PartialCall.parse_print h.isCanonical position⟩

/-- A call with a text that holds its own quote, a backslash and a line feed, a call in parentheses
and a repeated key; a partial tag with a name in brackets. -/
theorem parse_print_of_isWritten_nested :
    ∃ c : Call, ∃ p : PartialCall, c.IsWritten ∧ p.IsWritten ∧
      c.print = "f 'it\\'s \\\\\n' (eq ../[a b] -1.5) k=null k=@index".toList ∧
      p.print = "[my card] this t=\"'\"".toList ∧
      Call.parse ⟨1, 1⟩ c.print = .ok c ∧ PartialCall.parse ⟨1, 1⟩ p.print = .ok p := by
  let parent : Path := ⟨"../[a b]".toList, ["a b".toList], 1, false⟩
  let index : Path := ⟨"@index".toList, ["index".toList], 0, true⟩
  let this : Path := ⟨"this".toList, [], 0, false⟩
  let number : Expr := .literal "-1.5".toList (.ofNumber "-1.5".toList)
  let inner : Call := ⟨⟨"eq".toList, ["eq".toList], 0, false⟩, [.path parent, number], []⟩
  let quoted (quote : Char) (t : Text) : Expr := .literal (Literal.quoteWith quote t) (.text t)
  let c : Call := ⟨⟨"f".toList, ["f".toList], 0, false⟩,
    [quoted '\'' "it's \\\n".toList, inner.toExpr],
    [("k".toList, .literal "null".toList .null), ("k".toList, .path index)]⟩
  let p : PartialCall := ⟨.literal "[my card]".toList (.text "my card".toList), some (.path this),
    [("t".toList, quoted '"' "'".toList)]⟩
  have halone : ∀ lexeme ∈ [Lexeme.word parent.source, .word index.source, .word this.source,
      .word inner.head.source, .word c.head.source, .number "-1.5".toList], lexeme.IsAlone := by
    intro lexeme h
    rw [Lexeme.isAlone_iff]
    revert lexeme
    decide +kernel
  have hparent : parent.IsWritten := ⟨halone _ (by decide), by decide, by decide +kernel⟩
  have hindex : index.IsWritten := ⟨halone _ (by decide), by decide, by decide +kernel⟩
  have hthis : this.IsWritten := ⟨halone _ (by decide), by decide, by decide +kernel⟩
  have heq : inner.head.IsWritten := ⟨halone _ (by decide), by decide, by decide +kernel⟩
  have hf : c.head.IsWritten := ⟨halone _ (by decide), by decide, by decide +kernel⟩
  have hkey {k : Char} (hk : Lexeme.isKeyStart k = true) : Lexeme.IsKey [k] :=
    ⟨k, [], rfl, hk, List.forall_mem_nil _⟩
  have hinner : inner.toExpr.IsWritten := .call heq
    (List.forall_mem_cons.2 ⟨.path hparent,
      List.forall_mem_singleton.2 (.number (halone _ (by decide)))⟩)
    (List.forall_mem_nil _) (List.forall_mem_nil _)
  have hc : c.IsWritten :=
    ⟨hf, List.forall_mem_cons.2 ⟨.text (.inr rfl) _, List.forall_mem_singleton.2 hinner⟩,
      List.forall_mem_cons.2 ⟨hkey (by decide), List.forall_mem_singleton.2 (hkey (by decide))⟩,
      List.forall_mem_cons.2 ⟨.keyword rfl, List.forall_mem_singleton.2 (.path hindex)⟩⟩
  have hname : p.name.IsWrittenName :=
    Expr.IsWrittenName.bracketed (by decide : "my card".toList ≠ []) (by decide)
  have hp : p.IsWritten :=
    ⟨hname, fun e he => Option.mem_some_iff.1 he ▸ .path hthis,
      List.forall_mem_singleton.2 (hkey (by decide)),
      List.forall_mem_singleton.2 (.text (.inl rfl) _)⟩
  obtain ⟨hcall, hpartial⟩ := parse_print_of_isWritten ⟨1, 1⟩
  exact ⟨c, p, hc, hp, by decide +kernel, by decide +kernel, hcall c hc, hpartial p hp⟩

end Stencil
