import Stencil.Proofs.Node.Merging
import Stencil.Proofs.Node.Whitespace
import Stencil.Proofs.Token.LineBreak

/-!
# Templates with other line breaks

A template means the same whether its lines end in a line feed or in a carriage return and a line
feed: the tree is the same, with the same calls, indentations and positions, and its texts differ in
their line breaks only (`Node.parse_crlf`).

* The tokens are the same up to the line breaks in texts (`Scans.crlf`).
* Whether a tag stands alone does not change, and what is taken away from a text neither ends nor
  begins within a line break (`Text.settle_crlf`).  So the pieces are the same up to line breaks as
  well (`Piece.crlfOf_arrangeFrom`).
* Every step that a builder takes for a piece commutes with changing the line breaks in the texts it
  holds (`TreeBuilder.step_mapTexts`), and so do all steps together.
-/

set_option autoImplicit false

namespace Stencil

open Text (crlf)

/-! ## White space -/

namespace Text

/-- A step that may be left out commutes with changing line breaks if it does when it is taken. -/
theorem ite_crlf {p : Prop} [Decidable p] (f : Text → Text) {t : Text}
    (h : f (crlf t) = crlf (f t)) :
    (if p then f (crlf t) else crlf t) = crlf (if p then f t else t) := by
  split
  · exact h
  · rfl

/-- White space is settled alike with either line break. -/
theorem settle_crlf {t : Text} (h : '\r' ∉ t) (lineBefore lineAfter trimFront trimBack : Bool) :
    settle lineBefore lineAfter trimFront trimBack (crlf t) =
      crlf (settle lineBefore lineAfter trimFront trimBack t) := by
  simp only [settle]
  rw [ite_crlf dropLineEnd (dropLineEnd_crlf h),
    ite_crlf (dropEndWhile isIndentChar) (dropEndWhile_crlf (by decide) _),
    ite_crlf (List.dropWhile isBlank) (dropWhile_crlf (by decide) _),
    ite_crlf (dropEndWhile isBlank) (dropEndWhile_crlf (by decide) _)]

end Text

namespace Token

/-- What a text tells about the end of a line.  Spaces and tabs alone tell something only at the end
of the source. -/
theorem endsLine_text (raw : Text) (start : Cursor) (later : List Token) :
    endsLine (.text raw start :: later) =
      if raw.dropWhile isIndentChar = [] ∧ later ≠ [] then false else Text.isLineEnd raw := by
  rw [endsLine, Text.isLineEnd]
  cases raw.dropWhile isIndentChar with
  | nil => cases later <;> simp
  | cons c rest => split <;> simp_all

namespace CrlfOf

variable {before before' after after' : List Token}

theorem eq_nil_iff (h : List.Forall₂ CrlfOf before before') : before' = [] ↔ before = [] := by
  cases h <;> simp

theorem lineIndent?_eq (h : List.Forall₂ CrlfOf before before') :
    lineIndent? before' = lineIndent? before := by
  cases h with
  | nil => rfl
  | cons hfirst hrest =>
    cases hfirst with
    | tag hstart => rfl
    | text c c' hraw =>
      rw [lineIndent?_text, lineIndent?_text, Text.indentAtEnd?_crlf]
      refine if_congr ?_ rfl rfl
      rw [Text.dropEndWhile_crlf (by decide), Text.crlf_eq_nil_iff, ne_eq, eq_nil_iff hrest]

theorem endsLine_eq (h : List.Forall₂ CrlfOf after after') : endsLine after' = endsLine after := by
  cases h with
  | nil => rfl
  | cons hfirst hrest =>
    cases hfirst with
    | tag hstart => rfl
    | text c c' hraw =>
      rw [endsLine_text, endsLine_text, Text.isLineEnd_crlf hraw]
      refine if_congr ?_ rfl rfl
      rw [Text.dropWhile_crlf (by decide), Text.crlf_eq_nil_iff, ne_eq, eq_nil_iff hrest]

/-- A tag stands alone where it did. -/
theorem standaloneIndent?_eq (hbefore : List.Forall₂ CrlfOf before before')
    (hafter : List.Forall₂ CrlfOf after after') (tag : Tag) (c' : Cursor) :
    standaloneIndent? before' { tag with start := c' } after' =
      standaloneIndent? before tag after := by
  rw [standaloneIndent?, standaloneIndent?, lineIndent?_eq hbefore, endsLine_eq hafter]

/-- What is kept of a text is the same up to line breaks. -/
theorem trimmed_eq (hbefore : List.Forall₂ CrlfOf before before')
    (hafter : List.Forall₂ CrlfOf after after') {raw : Text} (hraw : '\r' ∉ raw) (c c' : Cursor) :
    trimmed before' (crlf raw) c' after' = crlf (trimmed before raw c after) := by
  have hhere := CrlfOf.text c c' hraw
  have hsettle : trimmed before raw c after = Text.settle _ _ _ _ raw := rfl
  have hsettle' : trimmed before' (crlf raw) c' after' = Text.settle _ _ _ _ (crlf raw) := rfl
  rw [hsettle, hsettle', ← Text.settle_crlf hraw]
  congr 1
  · cases hbefore with
    | nil => rfl
    | cons hfirst hrest =>
      cases hfirst with
      | text => rfl
      | tag => exact congrArg Option.isSome (standaloneIndent?_eq hrest (.cons hhere hafter) _ _)
  · cases hafter with
    | nil => rfl
    | cons hfirst hrest =>
      cases hfirst with
      | text => rfl
      | tag => exact congrArg Option.isSome (standaloneIndent?_eq (.cons hhere hbefore) hrest _ _)
  · cases hbefore with
    | nil => rfl
    | cons hfirst hrest => cases hfirst <;> rfl
  · cases hafter with
    | nil => rfl
    | cons hfirst hrest => cases hfirst <;> rfl

end CrlfOf

end Token

/-- A piece is the same up to line breaks: a text has other line breaks, and a tag has the same
position. -/
inductive Piece.CrlfOf : Piece → Piece → Prop
  /-- A text. -/
  | text (t : Text) : CrlfOf (.text t) (.text (crlf t))
  /-- A tag. -/
  | tag {tag : Tag} {c' : Cursor} (hstart : tag.start.position = c'.position)
      (indent : Option Text) : CrlfOf (.tag tag indent) (.tag { tag with start := c' } indent)

/-- **The pieces of a template are the same up to line breaks.** -/
theorem Piece.crlfOf_arrangeFrom {before before' tokens tokens' : List Token}
    (hbefore : List.Forall₂ Token.CrlfOf before before')
    (h : List.Forall₂ Token.CrlfOf tokens tokens') :
    List.Forall₂ CrlfOf (arrangeFrom before tokens) (arrangeFrom before' tokens') := by
  induction h generalizing before before' with
  | nil => exact .nil
  | @cons token token' after after' htoken hafter ih =>
    rw [arrangeFrom_cons, arrangeFrom_cons]
    refine .cons ?_ (ih (.cons htoken hbefore))
    cases htoken with
    | text c c' hraw =>
      rw [ofToken, ofToken, Token.CrlfOf.trimmed_eq hbefore hafter hraw c c']
      exact .text _
    | tag hstart =>
      rw [ofToken, ofToken, Token.CrlfOf.standaloneIndent?_eq hbefore hafter]
      exact .tag hstart _

/-! ## Changing the texts of a tree -/

mutual

/-- A node with all of its texts changed. -/
def Node.mapTexts (f : Text → Text) : Node → Node
  | .text t => .text (f t)
  | .comment content => .comment content
  | .output escaped call position => .output escaped call position
  | .block inverted call body inverse position =>
    .block inverted call (Node.mapTextsOf f body) (Node.mapBranchTexts f inverse) position
  | .partialTag call indent position => .partialTag call indent position

/-- Some nodes with all of their texts changed. -/
def Node.mapTextsOf (f : Text → Text) : List Node → List Node
  | [] => []
  | node :: rest => node.mapTexts f :: Node.mapTextsOf f rest

/-- A branch with all of its texts changed. -/
def Node.mapBranchTexts (f : Text → Text) : Option (List Node) → Option (List Node)
  | none => none
  | some nodes => some (Node.mapTextsOf f nodes)

end

namespace Node

theorem mapTextsOf_eq_map (f : Text → Text) (nodes : List Node) :
    mapTextsOf f nodes = nodes.map (mapTexts f) := by
  induction nodes with
  | nil => rfl
  | cons node nodes ih => rw [mapTextsOf, ih, List.map_cons]

theorem mapBranchTexts_eq_map (f : Text → Text) (branch : Option (List Node)) :
    mapBranchTexts f branch = branch.map (List.map (mapTexts f)) := by
  cases branch with
  | none => rfl
  | some nodes => rw [mapBranchTexts, mapTextsOf_eq_map, Option.map_some]

theorem isText_mapTexts (f : Text → Text) (node : Node) :
    (node.mapTexts f).isText = node.isText := by
  cases node <;> rfl

/-- It does not matter whether line breaks are changed before texts are merged or after. -/
theorem map_mapTexts_pushTo (node : Node) (nodes : List Node) :
    (node.pushTo nodes).map (mapTexts crlf) =
      (node.mapTexts crlf).pushTo (nodes.map (mapTexts crlf)) := by
  rcases node.text_or_isText with ⟨t, rfl⟩ | hnode
  · by_cases ht : t = []
    · subst ht
      rfl
    have ht' : crlf t ≠ [] := mt Text.crlf_eq_nil_iff.1 ht
    have hne : text t ≠ .text [] := fun h => ht (Node.text.inj h)
    have hne' : text (crlf t) ≠ .text [] := fun h => ht' (Node.text.inj h)
    rcases nodes with _ | ⟨last, rest⟩
    · rw [pushTo_nil hne, List.map_nil, mapTexts, pushTo_nil hne', List.map_singleton, mapTexts]
    rcases last.text_or_isText with ⟨s, rfl⟩ | hlast
    · rw [pushTo_text_cons ht, List.map_cons, List.map_cons, mapTexts, mapTexts, mapTexts,
        pushTo_text_cons ht', Text.crlf_append]
    · have hlast' : (last.mapTexts crlf).isText = false := by rwa [isText_mapTexts]
      rw [pushTo_cons_of_isText hlast hne, List.map_cons, List.map_cons, mapTexts,
        pushTo_cons_of_isText hlast' hne']
  · have hnode' : (node.mapTexts crlf).isText = false := by rwa [isText_mapTexts]
    rw [pushTo_of_isText hnode, pushTo_of_isText hnode', List.map_cons]

end Node

namespace OpenBlock

/-- An open section with all texts in it changed. -/
def mapTexts (f : Text → Text) (b : OpenBlock) : OpenBlock :=
  { b with
    body := b.body.map (Node.mapTexts f)
    inverse := b.inverse.map (List.map (Node.mapTexts f)) }

@[simp] theorem call_mapTexts (f : Text → Text) (b : OpenBlock) :
    (b.mapTexts f).call = b.call := rfl

@[simp] theorem chained_mapTexts (f : Text → Text) (b : OpenBlock) :
    (b.mapTexts f).chained = b.chained := rfl

theorem mapTexts_push (b : OpenBlock) (node : Node) :
    (b.push node).mapTexts crlf = (b.mapTexts crlf).push (node.mapTexts crlf) := by
  cases hinverse : b.inverse with
  | none => simp [push, mapTexts, hinverse, Node.map_mapTexts_pushTo]
  | some nodes => simp [push, mapTexts, hinverse, Node.map_mapTexts_pushTo]

theorem mapTexts_toNode (f : Text → Text) (b : OpenBlock) :
    b.toNode.mapTexts f = (b.mapTexts f).toNode := by
  rw [toNode, Node.mapTexts, Node.mapTextsOf_eq_map, Node.mapBranchTexts_eq_map, toNode, mapTexts,
    List.map_reverse]
  cases b.inverse with
  | none => rfl
  | some nodes => rw [Option.map_some, Option.map_some, List.map_reverse, Option.map_some,
      Option.map_some]

end OpenBlock

namespace TreeBuilder

/-- A builder with all texts that it holds changed. -/
def mapTexts (f : Text → Text) (b : TreeBuilder) : TreeBuilder :=
  ⟨b.root.map (Node.mapTexts f), b.blocks.map (OpenBlock.mapTexts f)⟩

theorem mapTexts_push (b : TreeBuilder) (node : Node) :
    (b.push node).mapTexts crlf = (b.mapTexts crlf).push (node.mapTexts crlf) := by
  obtain ⟨root, _ | ⟨inner, outer⟩⟩ := b
  · simp [push, mapTexts, Node.map_mapTexts_pushTo]
  · simp [push, mapTexts, OpenBlock.mapTexts_push]

theorem closeChain_mapTexts (inner : OpenBlock) (outer : List OpenBlock) :
    closeChain (inner.mapTexts crlf) (outer.map (OpenBlock.mapTexts crlf)) =
      ((closeChain inner outer).1.mapTexts crlf,
        (closeChain inner outer).2.map (OpenBlock.mapTexts crlf)) := by
  induction outer generalizing inner with
  | nil => rfl
  | cons next outer ih =>
    rw [List.map_cons, closeChain, closeChain, OpenBlock.chained_mapTexts,
      ← OpenBlock.mapTexts_toNode, ← OpenBlock.mapTexts_push, ih]
    split <;> rfl

theorem otherwise_mapTexts (b : TreeBuilder) {tag : Tag} {c' : Cursor}
    (hstart : tag.start.position = c'.position) :
    (b.mapTexts crlf).otherwise { tag with start := c' } =
      (b.otherwise tag).map (mapTexts crlf) := by
  obtain ⟨root, _ | ⟨inner, outer⟩⟩ := b
  · simp [otherwise, mapTexts, hstart, Except.map]
  · cases hinverse : inner.inverse with
    | some nodes => simp [otherwise, mapTexts, OpenBlock.mapTexts, hinverse, hstart, Except.map]
    | none =>
      by_cases hcontent : tag.content = []
      · simp [otherwise, mapTexts, OpenBlock.mapTexts, hinverse, hcontent, Except.map]
      · cases hcall : Call.parse c'.position tag.content <;>
          simp [otherwise, mapTexts, OpenBlock.mapTexts, hinverse, hcontent, hstart, hcall,
            opened, Except.map]

theorem close_mapTexts (b : TreeBuilder) {tag : Tag} {c' : Cursor}
    (hstart : tag.start.position = c'.position) :
    (b.mapTexts crlf).close { tag with start := c' } = (b.close tag).map (mapTexts crlf) := by
  obtain ⟨root, _ | ⟨inner, outer⟩⟩ := b
  · simp [close, mapTexts, hstart, Except.map]
  · simp only [close, mapTexts, List.map_cons, closeChain_mapTexts, OpenBlock.call_mapTexts]
    split
    · rw [hstart]
      rfl
    · rw [← OpenBlock.mapTexts_toNode]
      exact congrArg Except.ok (mapTexts_push ⟨root, (closeChain inner outer).2⟩ _).symm

/-- **A step commutes with changing the line breaks in texts.** -/
theorem step_mapTexts (b : TreeBuilder) {piece piece' : Piece} (h : Piece.CrlfOf piece piece') :
    (b.mapTexts crlf).step piece' = (b.step piece).map (mapTexts crlf) := by
  cases h with
  | text t => exact congrArg Except.ok (b.mapTexts_push (.text t)).symm
  | @tag tag c' hstart indent =>
    cases hkind : tag.kind <;> simp only [step, hkind]
    case comment => exact congrArg Except.ok (b.mapTexts_push (.comment tag.content)).symm
    case delimiters => rfl
    case otherwise => exact b.otherwise_mapTexts hstart
    case close => exact b.close_mapTexts hstart
    case escaped | unescaped =>
      rw [hstart]
      cases Call.parse c'.position tag.content with
      | error e => rfl
      | ok call => exact congrArg Except.ok (b.mapTexts_push (.output _ call c'.position)).symm
    case partialRef =>
      rw [hstart]
      cases PartialCall.parse c'.position tag.content with
      | error e => rfl
      | ok call => exact congrArg Except.ok (b.mapTexts_push (.partialTag call _ c'.position)).symm
    case block | inverted =>
      rw [hstart]
      cases Call.parse c'.position tag.content <;> rfl

theorem foldlM_mapTexts {pieces pieces' : List Piece}
    (h : List.Forall₂ Piece.CrlfOf pieces pieces') (b : TreeBuilder) :
    pieces'.foldlM step (b.mapTexts crlf) = (pieces.foldlM step b).map (mapTexts crlf) := by
  induction h generalizing b with
  | nil => rfl
  | @cons piece piece' pieces pieces' hpiece hrest ih =>
    rw [List.foldlM_cons, List.foldlM_cons, step_mapTexts b hpiece]
    cases b.step piece with
    | error e => rfl
    | ok b => exact ih b

theorem finish_mapTexts (b : TreeBuilder) :
    (b.mapTexts crlf).finish = b.finish.map (List.map (Node.mapTexts crlf)) := by
  have hfind : (b.mapTexts crlf).blocks.find? (fun block => !block.chained) =
      (b.blocks.find? fun block => !block.chained).map (OpenBlock.mapTexts crlf) :=
    List.find?_map
  rw [finish, hfind, finish]
  cases b.blocks.find? fun block => !block.chained with
  | some block => rfl
  | none => exact congrArg Except.ok List.map_reverse.symm

end TreeBuilder

namespace Node

/-- Tokens that are the same up to line breaks have the same tree up to line breaks, or none. -/
theorem ofTokens_crlf {tokens tokens' : List Token} (h : List.Forall₂ Token.CrlfOf tokens tokens') :
    ofTokens tokens' = (ofTokens tokens).map (List.map (mapTexts crlf)) := by
  have hfold := TreeBuilder.foldlM_mapTexts (Piece.crlfOf_arrangeFrom .nil h) .empty
  rw [ofTokens, ofPieces, Piece.arrange, show TreeBuilder.empty = TreeBuilder.empty.mapTexts crlf
    from rfl, hfold, ofTokens, ofPieces, Piece.arrange]
  cases (Piece.arrangeFrom [] tokens).foldlM TreeBuilder.step .empty with
  | error e => rfl
  | ok b => exact b.finish_mapTexts

/-- **The line breaks of a template do not change its meaning.**  If a template without carriage
returns has a tree and no line break stands inside one of its tags, then putting a carriage return
in front of every line feed gives a template with the same tree, but for the line breaks in its
texts. -/
theorem parse_crlf {d : Delimiters} {source : Text} {nodes : List Node}
    (hsource : '\r' ∉ source) (htags : ∀ tag, .tag tag ∈ (scan d source).tokens → '\n' ∉ tag.raw)
    (h : parse d source = .ok nodes) :
    parse d (crlf source) = .ok (nodes.map (mapTexts crlf)) := by
  obtain ⟨e, hfinish, htree⟩ := Except.bind_eq_ok.1 h
  obtain ⟨tokens', e', hscan, htokens⟩ := (scans_scan hfinish).crlf hsource htags rfl
  have hscan' : scan d (crlf source) = ⟨tokens', .ok e'⟩ := hscan
  rw [parse, hscan']
  show ofTokens tokens' = _
  rw [ofTokens_crlf htokens, htree]
  rfl

/-- Sections and partials on lines of their own, a trimming mark, and an escaped tag with a line
break inside. -/
theorem parse_crlf_standalone :
    ∃ nodes,
      parse ⟨['['], [']'], rfl, rfl⟩ "a\n [#s]\n\\[x\ny] [~z]\n[/s]\n\t[>p]\n".toList =
        .ok nodes ∧
      parse ⟨['['], [']'], rfl, rfl⟩ (crlf "a\n [#s]\n\\[x\ny] [~z]\n[/s]\n\t[>p]\n".toList) =
        .ok (nodes.map (mapTexts crlf)) := by
  have htree : (parse ⟨['['], [']'], rfl, rfl⟩
      "a\n [#s]\n\\[x\ny] [~z]\n[/s]\n\t[>p]\n".toList).isOk = true := by
    decide +kernel
  have htags : ∀ token ∈ (scan ⟨['['], [']'], rfl, rfl⟩
      "a\n [#s]\n\\[x\ny] [~z]\n[/s]\n\t[>p]\n".toList).tokens,
      '\n' ∈ token.raw → token = .text token.raw token.start := by
    decide +kernel
  obtain ⟨nodes, hnodes⟩ := Except.isOk_iff.1 htree
  refine ⟨nodes, hnodes, parse_crlf (by decide +kernel) (fun tag htag hmem => ?_) hnodes⟩
  exact absurd (htags (.tag tag) htag hmem) (by simp)

end Node

end Stencil
