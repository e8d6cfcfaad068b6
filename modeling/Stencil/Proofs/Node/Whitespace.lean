import Stencil.Proofs.Node.Derivation
import Stencil.Proofs.Node.Trimming

/-!
# White space as a matter of the source

`Piece.arrange` settles the white space of a template by looking at neighbours in a list of tokens.
This file says what that means in terms of the source alone.

* A tag is marked as standing alone if and only if it does so in the source, and the indentation
  that is kept with it is the run of spaces and tabs before it.
* Of a text, the stretch between two marks is kept, which the tags next to it set
  (`Token.settled`).
* The partial tags of a tree are those of the template, in their order, each with its indentation
  (`Node.indentsOf`).

`Piece.arrange_scan` puts the three together.
-/

set_option autoImplicit false

namespace Stencil

/-! ## What becomes of a token -/

/-- The indentation of a tag: the spaces and tabs before it if it stands alone, and nothing
otherwise. -/
def Tag.indent (source : Text) (t : Tag) : Text :=
  if t.StandsAlone source then Text.takeEndWhile isIndentChar (source.take t.start.offset) else []

/-- What becomes of a token between its neighbours. -/
def Token.settled (source : Text) (previous : Option Token) (next : Option Token) : Token → Piece
  | .text raw _ => .text (Text.cut (frontCut source raw previous) (backCut source raw next) raw)
  | .tag t => .tag t (if t.StandsAlone source then some (t.indent source) else none)

namespace Token

theorem standaloneIndent?_eq {source : Text} {before after : List Token} {t : Tag}
    (h : (Token.tag t).IsLocated source before after) :
    standaloneIndent? before t after =
      if t.StandsAlone source then some (t.indent source) else none := by
  rw [standaloneIndent?_of_isLocated h]
  by_cases halone : t.StandsAlone source
  · obtain ⟨indent, hindent⟩ := halone.startsLine
    rw [if_pos halone, if_pos halone, Tag.indent, if_pos halone,
      Text.indentAtEnd?_eq_some_iff.2 hindent, (Text.takeEndWhile_of_endsInIndent hindent).1]
  · rw [if_neg halone, if_neg halone]

/-- A token of a list that is located is located between the others. -/
theorem AllLocated.isLocated {source : Text} {earlier : List Token} {token : Token}
    {after : List Token} (before : List Token)
    (h : AllLocated source earlier (before ++ token :: after)) :
    token.IsLocated source (before.reverse ++ earlier) after := by
  induction before generalizing earlier with
  | nil => exact h.1
  | cons first before ih =>
    rw [List.reverse_cons, List.append_assoc, List.singleton_append]
    exact ih h.2

end Token

namespace Piece

/-- The piece of a token, by the tokens around it. -/
def ofToken (before : List Token) (after : List Token) : Token → Piece
  | .text raw start => .text (Token.trimmed before raw start after)
  | .tag t => .tag t (Token.standaloneIndent? before t after)

theorem arrangeFrom_cons (before : List Token) (token : Token) (after : List Token) :
    arrangeFrom before (token :: after) =
      ofToken before after token :: arrangeFrom (token :: before) after := by
  cases token <;> rfl

theorem length_arrangeFrom (before tokens : List Token) :
    (arrangeFrom before tokens).length = tokens.length := by
  induction tokens generalizing before with
  | nil => rfl
  | cons token after ih => rw [arrangeFrom_cons, List.length_cons, ih, List.length_cons]

theorem arrangeFrom_getElem? (earlier before : List Token) (token : Token) (after : List Token) :
    (arrangeFrom earlier (before ++ token :: after))[before.length]? =
      some (ofToken (before.reverse ++ earlier) after token) := by
  induction before generalizing earlier with
  | nil => rw [List.nil_append, arrangeFrom_cons]; rfl
  | cons first before ih =>
    rw [List.cons_append, arrangeFrom_cons, List.length_cons, List.getElem?_cons_succ, ih,
      List.reverse_cons, List.append_assoc, List.singleton_append]

/-- What becomes of a token is a matter of the source. -/
theorem ofToken_eq_settled {source : Text} {before after : List Token} {token : Token}
    (h : Token.AllLocated source [] (before ++ token :: after)) :
    ofToken before.reverse after token =
      token.settled source before.getLast? after.head? := by
  cases token with
  | tag t =>
    have ht := Token.AllLocated.isLocated before h
    rw [List.append_nil] at ht
    rw [ofToken, Token.standaloneIndent?_eq ht, Token.settled]
  | text raw start =>
    rw [ofToken, Token.settled, ← List.head?_reverse, Token.trimmed_eq_cut]
    · intro t earlier hbefore
      have hsplit : before = earlier.reverse ++ [.tag t] := by
        rw [← List.reverse_reverse before, hbefore, List.reverse_cons]
      rw [hsplit, List.append_assoc] at h
      have ht := Token.AllLocated.isLocated earlier.reverse h
      rwa [List.reverse_reverse, List.append_nil] at ht
    · intro t later hafter
      have hsplit : before ++ .text raw start :: after =
          (before ++ [.text raw start]) ++ .tag t :: later := by
        rw [hafter, List.append_assoc]
        rfl
      rw [hsplit] at h
      have ht := Token.AllLocated.isLocated _ h
      rwa [List.append_nil, List.reverse_append] at ht

end Piece

/-! ## The partial tags of a tree -/

mutual

/-- The places and indentations of the partial tags in a node, in the order of the template. -/
def Node.indents : Node → List (Position × Text)
  | .block _ _ body inverse _ => Node.indentsOf body ++ Node.branchIndents inverse
  | .partialTag _ indent position => [(position, indent)]
  | _ => []

/-- The places and indentations of the partial tags in some nodes. -/
def Node.indentsOf : List Node → List (Position × Text)
  | [] => []
  | node :: rest => node.indents ++ Node.indentsOf rest

/-- The places and indentations of the partial tags in a branch. -/
def Node.branchIndents : Option (List Node) → List (Position × Text)
  | none => []
  | some nodes => Node.indentsOf nodes

end

/-- The place and the indentation of a partial tag. -/
def Token.indent? (source : Text) : Token → Option (Position × Text)
  | .tag t => if t.kind = .partialRef then some (t.start.position, t.indent source) else none
  | .text _ _ => none

/-- The place and the indentation of a partial tag. -/
def Symbol.indent? : Symbol → Option (Position × Text)
  | .leaf (.partialTag _ indent position) => some (position, indent)
  | _ => none

theorem Node.indentsOf_prepend (node : Node) (nodes : List Node) :
    Node.indentsOf (node.prepend nodes) = node.indents ++ Node.indentsOf nodes := by
  rcases node.text_or_isText with ⟨t, rfl⟩ | hnode
  · rcases nodes with _ | ⟨next, rest⟩
    · rfl
    · cases next <;> rfl
  · rw [Node.prepend_of_isText hnode, Node.indentsOf]

mutual

/-- The partial tags of a derivation are those of the symbols that it derives. -/
theorem Forest.indentsOf_nodes : ∀ forest : Forest,
    Node.indentsOf forest.nodes = forest.yield.filterMap Symbol.indent?
  | .nil => rfl
  | .cons item rest => by
    rw [Forest.nodes, Node.indentsOf_prepend, Forest.yield, List.filterMap_append,
      item.indents_node, rest.indentsOf_nodes]

theorem Item.indents_node : ∀ item : Item,
    item.node.indents = item.yield.filterMap Symbol.indent?
  | .leaf leaf => by cases leaf <;> rfl
  | .block heading body tail closedAt => by
    rw [Item.node, Node.indents, body.indentsOf_nodes, tail.branchIndents_branch, Item.yield,
      List.filterMap_cons_none rfl, List.filterMap_append, List.filterMap_append,
      List.filterMap_cons_none rfl, List.filterMap_nil, List.append_nil]

theorem Tail.branchIndents_branch : ∀ tail : Tail,
    Node.branchIndents tail.branch = tail.yield.filterMap Symbol.indent?
  | .nil => rfl
  | .otherwise position branch => by
    rw [Tail.branch, Node.branchIndents, branch.indentsOf_nodes, Tail.yield,
      List.filterMap_cons_none rfl]
  | .chain call position body tail => by
    rw [Tail.branch, Node.branchIndents, Node.indentsOf, Node.indentsOf, Node.indents,
      body.indentsOf_nodes, tail.branchIndents_branch, Tail.yield, List.filterMap_cons_none rfl,
      List.filterMap_append, List.append_nil]

end

/-- The place and the indentation of a partial tag. -/
def Piece.indent? : Piece → Option (Position × Text)
  | .tag t indent =>
    if t.kind = .partialRef then some (t.start.position, indent.getD []) else none
  | .text _ => none

theorem Piece.indent?_eq {piece : Piece} {symbol? : Option Symbol}
    (h : piece.symbol? = .ok symbol?) : piece.indent? = symbol?.bind Symbol.indent? := by
  cases piece with
  | text content =>
    obtain rfl := Except.ok.inj h
    split <;> rfl
  | tag t indent =>
    cases hkind : t.kind <;> simp only [Piece.symbol?, Piece.indent?, hkind] at h ⊢
    case comment | close | delimiters =>
      obtain rfl := Except.ok.inj h
      simp [Symbol.indent?]
    case otherwise =>
      split at h
      · obtain rfl := Except.ok.inj h
        simp [Symbol.indent?]
      · obtain ⟨call, -, rfl⟩ := Except.map_eq_ok.1 h
        simp [Symbol.indent?]
    case block | inverted | escaped | unescaped | partialRef =>
      obtain ⟨call, -, rfl⟩ := Except.map_eq_ok.1 h
      simp [Symbol.indent?]

/-- The partial tags of some symbols are those of the pieces that they come from. -/
theorem Symbol.filterMap_indent? {pieces : List Piece} {w : List Symbol}
    (h : Symbol.ofPieces pieces = .ok w) :
    w.filterMap Symbol.indent? = pieces.filterMap Piece.indent? := by
  induction pieces generalizing w with
  | nil =>
    obtain rfl := Except.ok.inj h
    rfl
  | cons piece pieces ih =>
    obtain ⟨symbol?, hpiece, hrest⟩ := Except.bind_eq_ok.1 h
    obtain ⟨w, hw, rfl⟩ := Except.map_eq_ok.1 hrest
    rw [List.filterMap_append, ih hw, List.filterMap_cons, Piece.indent?_eq hpiece]
    cases symbol? with
    | none => rfl
    | some x =>
      cases hx : x.indent? with
      | none => simp [hx]
      | some i => simp [hx]

/-- The partial tags of the pieces are those of the tokens, each with its indentation in the
source. -/
theorem Piece.filterMap_indent? {source : Text} {before tokens : List Token}
    (h : Token.AllLocated source before tokens) :
    (Piece.arrangeFrom before tokens).filterMap Piece.indent? =
      tokens.filterMap (Token.indent? source) := by
  induction tokens generalizing before with
  | nil => rfl
  | cons token after ih =>
    rw [Piece.arrangeFrom_cons, List.filterMap_cons, List.filterMap_cons, ih h.2]
    cases token with
    | text raw start => rfl
    | tag t =>
      have hindent : (if t.StandsAlone source then some (t.indent source) else none).getD [] =
          t.indent source := by
        by_cases halone : t.StandsAlone source
        · rw [if_pos halone, Option.getD_some]
        · rw [if_neg halone, Option.getD_none, Tag.indent, if_neg halone]
      rw [Piece.ofToken, Token.standaloneIndent?_eq h.1, Piece.indent?, hindent]
      rfl

/-! ## Whole templates -/

/-- **White space is settled by the source.**  For a template that can be scanned:

* every token is a stretch of the source, and what becomes of it is a matter of the source and of
  the tags next to it: whether a tag stands alone, and how much of a text is kept;
* the partial tags of its tree are those of the template, in the same order, each with the spaces
  and tabs before it as its indentation if it stands alone, and with none otherwise. -/
theorem Piece.arrange_scan {d : Delimiters} {source : Text} {e : Cursor}
    (h : (scan d source).finish = .ok e) :
    (Piece.arrange (scan d source).tokens).length = (scan d source).tokens.length ∧
    (∀ before token after, (scan d source).tokens = before ++ token :: after →
      token.raw <+: source.drop token.start.offset ∧
        (Piece.arrange (scan d source).tokens)[before.length]? =
          some (token.settled source before.getLast? after.head?)) ∧
    ∀ nodes, Node.ofTokens (scan d source).tokens = .ok nodes →
      Node.indentsOf nodes = (scan d source).tokens.filterMap (Token.indent? source) := by
  have hlocated : Token.AllLocated source [] (scan d source).tokens :=
    Token.allLocated_of_scans (scans_scan h) rfl rfl fun _ => .start
  refine ⟨Piece.length_arrangeFrom _ _, ?_, ?_⟩
  · intro before token after htokens
    rw [htokens] at hlocated ⊢
    refine ⟨(Token.AllLocated.isLocated before hlocated).raw_isPrefix, ?_⟩
    rw [Piece.arrange, Piece.arrangeFrom_getElem?, List.append_nil,
      Piece.ofToken_eq_settled hlocated]
  · intro nodes hnodes
    obtain ⟨w, forest, hw, rfl, rfl⟩ := Node.exists_forest_of_ofPieces hnodes
    rw [forest.indentsOf_nodes, Symbol.filterMap_indent? hw]
    exact Piece.filterMap_indent? hlocated

/-- A partial tag on a line of its own is indented by what stands before it, also when a mark has
trimmed the text before the line. -/
theorem Piece.arrange_scan_partial :
    ∃ source e nodes, (scan ⟨['['], [']'], rfl, rfl⟩ source).finish = .ok e ∧
      Node.ofTokens (scan ⟨['['], [']'], rfl, rfl⟩ source).tokens = .ok nodes ∧
      Node.indentsOf nodes = [(⟨2, 3⟩, [' ', '\t'])] := by
  have hfinish : (scan ⟨['['], [']'], rfl, rfl⟩ "a [b~]\n \t[>p]\r\n c".toList).finish.isOk =
      true := by decide +kernel
  have htree : (Node.ofTokens
      (scan ⟨['['], [']'], rfl, rfl⟩ "a [b~]\n \t[>p]\r\n c".toList).tokens).isOk = true := by
    decide +kernel
  obtain ⟨e, he⟩ := Except.isOk_iff.1 hfinish
  obtain ⟨nodes, hnodes⟩ := Except.isOk_iff.1 htree
  refine ⟨_, e, nodes, he, hnodes, ?_⟩
  rw [(Piece.arrange_scan he).2.2 nodes hnodes]
  decide +kernel

end Stencil
