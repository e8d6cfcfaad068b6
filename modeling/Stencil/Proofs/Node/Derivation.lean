import Stencil.Proofs.Except
import Stencil.Proofs.Node.Merging
import Stencil.Proofs.Node.OpenForest

/-!
# The tree of a template is the tree of its derivation

`TreeBuilder` keeps a stack on which chained sections lie like all others, and it unwinds a chain
when the closing tag comes.  `OpenForest.builder` says which stack belongs to a forest with open
sections: a section with a tail becomes one block for itself and one for each section of the chain,
all of them chained but the last (`Tail.blocks`).

Each operation of the builder looks at the innermost block only, so what it does to a tail is a
statement about the first block of a list: `blocks_grow_single` for a node, `blocks_graft_ofElse`
for an else tag.  A closing tag works its way through all of them, and `closeChain_blocks` says what
is left: the section, with the branch that its tail stands for.

`ofTokens_of_symbols` is the result.  A template has a tree if and only if its symbols derive, the
tree is that of the only derivation, and otherwise the error is the one the grammar calls for.
-/

set_option autoImplicit false

namespace Stencil

/-! ## The nodes of a forest -/

theorem Leaf.toNode_ne (leaf : Leaf) : leaf.toNode ≠ .text [] := by
  cases leaf with
  | text content ne_nil => exact fun h => ne_nil (Node.text.inj h)
  | _ => exact Node.noConfusion

theorem Item.node_ne (item : Item) : item.node ≠ .text [] := by
  cases item with
  | leaf leaf => exact leaf.toNode_ne
  | block heading body tail closedAt => exact Node.noConfusion

/-- An item behind a forest is a node behind the nodes of the forest. -/
theorem Forest.reverse_nodes_append_single (forest : Forest) (item : Item) :
    (forest.append (.single item)).nodes.reverse = item.node.pushTo forest.nodes.reverse := by
  induction forest with
  | nil =>
    rw [append, single, nodes, nodes, nodes, Node.prepend_nil, List.reverse_nil,
      Node.pushTo_nil item.node_ne, List.reverse_singleton]
  | cons first rest ih =>
    rw [append, nodes, nodes, ← Node.reverse_prepend_pushTo item.node_ne, ← ih,
      List.reverse_reverse]

mutual

/-- **The nodes of a derivation are tidy.** -/
theorem Forest.allTidy_nodes : ∀ forest : Forest, Node.AllTidy forest.nodes
  | .nil => trivial
  | .cons item rest => Node.allTidy_prepend item.tidy_node item.node_ne rest.allTidy_nodes

theorem Item.tidy_node : ∀ item : Item, item.node.Tidy
  | .leaf leaf => by cases leaf <;> trivial
  | .block _ body tail _ => ⟨body.allTidy_nodes, tail.branchTidy_branch⟩

theorem Tail.branchTidy_branch : ∀ tail : Tail, Node.BranchTidy tail.branch
  | .nil => trivial
  | .otherwise _ branch => branch.allTidy_nodes
  | .chain _ _ body tail => ⟨⟨body.allTidy_nodes, tail.branchTidy_branch⟩, trivial, trivial⟩

end

/-! ## The blocks of a section -/

/-- The block of a section that is being read. -/
def Heading.block (h : Heading) (chained : Bool) (body : Forest) (inverse : Option Forest) :
    OpenBlock :=
  ⟨h.call, h.position, h.inverted, chained, body.nodes.reverse,
    inverse.map fun branch => branch.nodes.reverse⟩

/-- The block of a section that has been read up to its closing tag. -/
def Heading.readBlock (h : Heading) (chained : Bool) (body : Forest) (tail : Tail) : OpenBlock :=
  ⟨h.call, h.position, h.inverted, chained, body.nodes.reverse, tail.branch.map List.reverse⟩

namespace Tail

/-- The blocks of a section with a tail, innermost first. -/
def blocks (h : Heading) (chained : Bool) (body : Forest) : Tail → List OpenBlock
  | .nil => [h.block chained body none]
  | .otherwise _ branch => [h.block chained body (some branch)]
  | .chain call position inner tail =>
    tail.blocks ⟨false, call, position⟩ true inner ++ [h.block chained body (some .nil)]

/-- A node goes into the innermost block. -/
theorem blocks_grow_single (item : Item) (h : Heading) (chained : Bool) (body : Forest)
    (tail : Tail) :
    ∃ inner outer, tail.blocks h chained body = inner :: outer ∧
      (tail.grow (.single item) body).2.blocks h chained (tail.grow (.single item) body).1 =
        inner.push item.node :: outer := by
  induction tail generalizing h chained body with
  | nil =>
    refine ⟨_, [], rfl, ?_⟩
    rw [grow, blocks, Heading.block, Forest.reverse_nodes_append_single]
    rfl
  | otherwise position branch =>
    refine ⟨_, [], rfl, ?_⟩
    rw [grow, blocks, Heading.block, Option.map_some, Forest.reverse_nodes_append_single]
    rfl
  | chain call position inner tail ih =>
    obtain ⟨b, outer, hblocks, hgrow⟩ := ih ⟨false, call, position⟩ true inner
    refine ⟨b, outer ++ [h.block chained body (some .nil)], ?_, ?_⟩
    · rw [blocks, hblocks, List.cons_append]
    · rw [grow, blocks, hgrow, List.cons_append]

/-- An else tag begins the other branch of the innermost block, which has only one so far, and may
open another block in it. -/
theorem blocks_graft_ofElse {tail : Tail} (helse : tail.hasElse = false) (position : Position)
    (call : Option Call) (h : Heading) (chained : Bool) (body : Forest) :
    ∃ inner outer, tail.blocks h chained body = inner :: outer ∧ inner.inverse = none ∧
      (tail.graft (.ofElse position call)).blocks h chained body =
        (call.toList.map fun c => ⟨c, position, false, true, [], none⟩) ++
          { inner with inverse := some [] } :: outer := by
  induction tail generalizing h chained body with
  | nil =>
    refine ⟨_, [], rfl, rfl, ?_⟩
    cases call with
    | none => rfl
    | some call => rfl
  | otherwise position branch => exact Bool.noConfusion helse
  | chain call' position' inner tail ih =>
    obtain ⟨b, outer, hblocks, hinverse, hgraft⟩ := ih helse ⟨false, call', position'⟩ true inner
    refine ⟨b, outer ++ [h.block chained body (some .nil)], ?_, hinverse, ?_⟩
    · rw [blocks, hblocks, List.cons_append]
    · rw [graft, blocks, hgraft, List.append_assoc, List.cons_append]

/-- Behind an else tag that begins a branch, the innermost block has both of its branches. -/
theorem blocks_of_hasElse {tail : Tail} (helse : tail.hasElse = true) (h : Heading)
    (chained : Bool) (body : Forest) :
    ∃ inner outer, tail.blocks h chained body = inner :: outer ∧ inner.inverse.isSome = true ∧
      inner.call = tail.innermostCall h.call := by
  induction tail generalizing h chained body with
  | nil => exact Bool.noConfusion helse
  | otherwise position branch => exact ⟨_, [], rfl, rfl, rfl⟩
  | chain call position inner tail ih =>
    obtain ⟨b, outer, hblocks, hinverse, hcall⟩ := ih helse ⟨false, call, position⟩ true inner
    refine ⟨b, outer ++ [h.block chained body (some .nil)], ?_, hinverse, hcall⟩
    rw [blocks, hblocks, List.cons_append]

/-- All blocks of a section are chained but the last, which is that of the section itself. -/
theorem exists_blocks (h : Heading) (chained : Bool) (body : Forest) (tail : Tail) :
    ∃ inner inverse, tail.blocks h chained body = inner ++ [h.block chained body inverse] ∧
      ∀ b ∈ inner, b.chained = true := by
  induction tail generalizing h chained body with
  | nil => exact ⟨[], none, rfl, by simp⟩
  | otherwise position branch => exact ⟨[], some branch, rfl, by simp⟩
  | chain call position body' tail ih =>
    obtain ⟨inner, inverse, hblocks, hchained⟩ := ih ⟨false, call, position⟩ true body'
    refine ⟨_, some .nil, rfl, ?_⟩
    rw [hblocks]
    intro b hb
    rcases List.mem_append.1 hb with hb | hb
    · exact hchained b hb
    · obtain rfl := List.mem_singleton.1 hb
      rfl

/-- **Closing a chain.**  When the blocks of a tail are closed, each is the only node of the branch
of the next one, and what is left is the block of the section with the branch that the tail stands
for. -/
theorem closeChain_blocks (h : Heading) (chained : Bool) (body : Forest) (tail : Tail) :
    ∃ inner outer, tail.blocks h chained body = inner :: outer ∧
      ∀ more, TreeBuilder.closeChain inner (outer ++ more) =
        TreeBuilder.closeChain (h.readBlock chained body tail) more := by
  induction tail generalizing h chained body with
  | nil => exact ⟨_, [], rfl, fun more => rfl⟩
  | otherwise position branch => exact ⟨_, [], rfl, fun more => rfl⟩
  | chain call position body' tail ih =>
    obtain ⟨b, outer, hblocks, hclose⟩ := ih ⟨false, call, position⟩ true body'
    refine ⟨b, outer ++ [h.block chained body (some .nil)], ?_, fun more => ?_⟩
    · rw [blocks, hblocks, List.cons_append]
    · rw [List.append_assoc, hclose, List.singleton_append, TreeBuilder.closeChain]
      simp [Heading.readBlock, Heading.block, OpenBlock.push, OpenBlock.toNode, branch,
        Forest.nodes, Node.pushTo]

end Tail

/-! ## The builder of a forest -/

/-- An empty text changes nothing. -/
theorem TreeBuilder.push_empty (b : TreeBuilder) : b.push (.text []) = b := by
  obtain ⟨root, _ | ⟨inner, outer⟩⟩ := b
  · rfl
  · obtain ⟨call, position, inverted, chained, body, _ | inverse⟩ := inner <;> rfl

namespace OpenItem

/-- The blocks of an open section, innermost first. -/
def blocks (o : OpenItem) : List OpenBlock :=
  o.tail.blocks o.heading false o.body

end OpenItem

namespace OpenForest

/-- The builder that has read a forest with open sections. -/
def builder (P : OpenForest) : TreeBuilder :=
  ⟨P.root.nodes.reverse, P.opened.flatMap OpenItem.blocks⟩

theorem builder_push_single (P : OpenForest) (item : Item) :
    (P.push (.single item)).builder = P.builder.push item.node := by
  obtain ⟨root, _ | ⟨o, outer⟩⟩ := P
  · simp only [builder, push, List.flatMap_nil, Forest.reverse_nodes_append_single]
    rfl
  · obtain ⟨inner, rest, hblocks, hgrow⟩ := o.tail.blocks_grow_single item o.heading false o.body
    have ho : o.blocks = inner :: rest := hblocks
    have ho' : (o.push (.single item)).blocks = inner.push item.node :: rest := hgrow
    simp only [builder, push, List.flatMap_cons, ho, ho', List.cons_append]
    rfl

/-- The builder takes an else tag as the forest does. -/
theorem builder_otherwise (P : OpenForest) (t : Tag) {call : Option Call}
    (hcall : if t.content.isEmpty then call = none
      else ∃ c, call = some c ∧ Call.parse t.start.position t.content = .ok c) :
    P.builder.otherwise t = (P.read (.otherwise call t.start.position)).map builder := by
  obtain ⟨root, _ | ⟨o, outer⟩⟩ := P
  · rfl
  · cases helse : o.tail.hasElse with
    | true =>
      obtain ⟨inner, rest, hblocks, hinverse, hname⟩ :=
        Tail.blocks_of_hasElse helse o.heading false o.body
      have ho : o.blocks = inner :: rest := hblocks
      simp only [TreeBuilder.otherwise, builder, List.flatMap_cons, ho, List.cons_append, hinverse,
        if_true, read, helse, hname]
      rfl
    | false =>
      obtain ⟨inner, rest, hblocks, hinverse, hgraft⟩ :=
        Tail.blocks_graft_ofElse helse t.start.position call o.heading false o.body
      simp only [TreeBuilder.otherwise, builder, List.flatMap_cons, OpenItem.blocks, hblocks,
        List.cons_append, hinverse, Option.isSome_none, Bool.false_eq_true, if_false, read, helse,
        Except.map, hgraft, List.append_assoc]
      split at hcall
      · next hempty =>
        obtain rfl := hcall
        rw [if_pos hempty]
        rfl
      · next hempty =>
        obtain ⟨c, rfl, hparse⟩ := hcall
        rw [if_neg hempty, hparse]
        rfl

/-- The builder takes a closing tag as the forest does. -/
theorem builder_close (P : OpenForest) (t : Tag) :
    P.builder.close t = (P.read (.closing t.content t.start.position)).map builder := by
  obtain ⟨root, _ | ⟨o, outer⟩⟩ := P
  · rfl
  · obtain ⟨inner, rest, hblocks, hclose⟩ := o.tail.closeChain_blocks o.heading false o.body
    have ho : o.blocks = inner :: rest := hblocks
    have hchain : TreeBuilder.closeChain inner (rest ++ outer.flatMap OpenItem.blocks) =
        (o.heading.readBlock false o.body o.tail, outer.flatMap OpenItem.blocks) := by
      rw [hclose]
      cases outer.flatMap OpenItem.blocks <;> rfl
    have hnode : (o.heading.readBlock false o.body o.tail).toNode =
        (Item.block o.heading o.body o.tail t.start.position).node := by
      simp [Heading.readBlock, OpenBlock.toNode, Item.node]
    simp only [TreeBuilder.close, builder, List.flatMap_cons, ho, List.cons_append, hchain, read]
    have hname : (o.heading.readBlock false o.body o.tail).call.head.source = o.heading.name := rfl
    rw [hname]
    split
    · rfl
    · rw [hnode, Except.map, builder_push_single]
      rfl

theorem builder_leaf (P : OpenForest) (leaf : Leaf) :
    (P.read (.leaf leaf)).map builder = .ok (P.builder.push leaf.toNode) :=
  congrArg Except.ok (builder_push_single P (.leaf leaf))

/-- **The builder follows the grammar**: a piece that has a symbol is taken as that symbol is
read. -/
theorem step_builder (P : OpenForest) {piece : Piece} {x : Symbol}
    (h : piece.symbol? = .ok (some x)) : P.builder.step piece = (P.read x).map builder := by
  cases piece with
  | text content =>
    rw [Piece.symbol?] at h
    split at h
    · exact absurd (Except.ok.inj h) (by simp)
    · obtain rfl := Option.some.inj (Except.ok.inj h)
      rw [builder_leaf]
      rfl
  | tag t indent =>
    cases hkind : t.kind <;> simp only [Piece.symbol?, TreeBuilder.step, hkind] at h ⊢
    case comment =>
      obtain rfl := Option.some.inj (Except.ok.inj h)
      rw [builder_leaf]
      rfl
    case delimiters => exact absurd (Except.ok.inj h) (by simp)
    case close =>
      obtain rfl := Option.some.inj (Except.ok.inj h)
      exact builder_close P t
    case otherwise =>
      split at h
      · next hempty =>
        obtain rfl := Option.some.inj (Except.ok.inj h)
        exact builder_otherwise P t (by rw [if_pos hempty])
      · next hempty =>
        obtain ⟨call, hparse, hx⟩ := Except.map_eq_ok.1 h
        obtain rfl := Option.some.inj hx
        exact builder_otherwise P t (by rw [if_neg hempty]; exact ⟨call, rfl, hparse⟩)
    case block | inverted =>
      obtain ⟨call, hparse, hx⟩ := Except.map_eq_ok.1 h
      obtain rfl := Option.some.inj hx
      rw [hparse]
      rfl
    case escaped | unescaped | partialRef =>
      obtain ⟨call, hparse, hx⟩ := Except.map_eq_ok.1 h
      obtain rfl := Option.some.inj hx
      rw [builder_leaf, hparse]
      rfl

/-- A piece without a symbol is passed over. -/
theorem step_builder_none (b : TreeBuilder) {piece : Piece} (h : piece.symbol? = .ok none) :
    b.step piece = .ok b := by
  cases piece with
  | text content =>
    rw [Piece.symbol?] at h
    split at h
    · next hnil =>
      subst hnil
      exact congrArg Except.ok b.push_empty
    · exact absurd (Except.ok.inj h) (by simp)
  | tag t indent =>
    cases hkind : t.kind <;> simp only [Piece.symbol?, TreeBuilder.step, hkind] at h ⊢
    case comment | close => exact absurd (Except.ok.inj h) (by simp)
    case otherwise =>
      split at h
      · exact absurd (Except.ok.inj h) (by simp)
      · obtain ⟨call, -, hx⟩ := Except.map_eq_ok.1 h
        exact absurd hx (by simp)
    case block | inverted | escaped | unescaped | partialRef =>
      obtain ⟨call, -, hx⟩ := Except.map_eq_ok.1 h
      exact absurd hx (by simp)

/-- A piece that is taken has a symbol or is passed over: its content could be parsed. -/
theorem exists_symbol?_of_step {b b' : TreeBuilder} {piece : Piece} (h : b.step piece = .ok b') :
    ∃ symbol?, piece.symbol? = .ok symbol? := by
  cases piece with
  | text content => exact ⟨_, rfl⟩
  | tag t indent =>
    cases hkind : t.kind <;> simp only [Piece.symbol?, TreeBuilder.step, hkind] at h ⊢
    case comment | close | delimiters => exact ⟨_, rfl⟩
    case otherwise =>
      by_cases hempty : t.content.isEmpty
      · exact ⟨_, if_pos hempty⟩
      · rw [if_neg hempty]
        simp only [TreeBuilder.otherwise] at h
        split at h
        · exact absurd h (by simp)
        · split at h
          · exact absurd h (by simp)
          · obtain ⟨call, hparse, -⟩ := Except.map_eq_ok.1 h
            exact ⟨_, Except.map_eq_ok.2 ⟨call, hparse, rfl⟩⟩
    case block | inverted | escaped | unescaped | partialRef =>
      obtain ⟨call, hparse, -⟩ := Except.map_eq_ok.1 h
      exact ⟨_, Except.map_eq_ok.2 ⟨call, hparse, rfl⟩⟩

/-! ## Whole templates -/

/-- The pieces of a template are taken as its symbols are read. -/
theorem foldlM_step_builder {pieces : List Piece} {w : List Symbol}
    (h : Symbol.ofPieces pieces = .ok w) (P : OpenForest) :
    pieces.foldlM TreeBuilder.step P.builder = (P.readAll w).map builder := by
  induction pieces generalizing w P with
  | nil =>
    obtain rfl := Except.ok.inj h
    rfl
  | cons piece pieces ih =>
    obtain ⟨symbol?, hpiece, hrest⟩ := Except.bind_eq_ok.1 h
    obtain ⟨w, hw, rfl⟩ := Except.map_eq_ok.1 hrest
    rw [List.foldlM_cons]
    cases symbol? with
    | none =>
      rw [step_builder_none _ hpiece]
      exact ih hw P
    | some x =>
      rw [step_builder P hpiece, Option.toList_some, List.singleton_append, readAll_cons]
      cases hx : P.read x with
      | error e => rfl
      | ok Q => exact ih hw Q

/-- If all pieces are taken, all contents could be parsed. -/
theorem exists_symbols_of_foldlM {pieces : List Piece} {b b' : TreeBuilder}
    (h : pieces.foldlM TreeBuilder.step b = .ok b') : ∃ w, Symbol.ofPieces pieces = .ok w := by
  induction pieces generalizing b with
  | nil => exact ⟨[], rfl⟩
  | cons piece pieces ih =>
    rw [List.foldlM_cons] at h
    obtain ⟨next, hstep, hrest⟩ := Except.bind_eq_ok.1 h
    obtain ⟨symbol?, hpiece⟩ := exists_symbol?_of_step hstep
    obtain ⟨w, hw⟩ := ih hrest
    exact ⟨symbol?.toList ++ w,
      Except.bind_eq_ok.2 ⟨symbol?, hpiece, Except.map_eq_ok.2 ⟨w, hw, rfl⟩⟩⟩

/-- A builder that has taken some pieces has read their symbols. -/
theorem exists_builder_of_foldlM {pieces : List Piece} {b : TreeBuilder}
    (h : pieces.foldlM TreeBuilder.step .empty = .ok b) :
    ∃ w, ∃ P : OpenForest, Symbol.ofPieces pieces = .ok w ∧ P.yield = w ∧ P.builder = b := by
  obtain ⟨w, hw⟩ := exists_symbols_of_foldlM h
  have hfold : pieces.foldlM TreeBuilder.step .empty = (empty.readAll w).map builder :=
    foldlM_step_builder hw empty
  rw [h] at hfold
  obtain ⟨P, hread, hbuilder⟩ := Except.map_eq_ok.1 hfold.symm
  exact ⟨w, P, hw, yield_readAll hread, hbuilder⟩

/-- A builder with an open section fails at the end with the section that has a closing tag of its
own. -/
theorem finish_builder_cons (root : Forest) (o : OpenItem) (outer : List OpenItem) :
    (builder ⟨root, o :: outer⟩).finish =
      .error (.unclosedSection o.heading.name o.heading.position) := by
  obtain ⟨inner, inverse, hblocks, hchained⟩ := Tail.exists_blocks o.heading false o.body o.tail
  have hnone : inner.find? (fun b => !b.chained) = none := by
    rw [List.find?_eq_none]
    intro b hb
    simp [hchained b hb]
  have hfind : (builder ⟨root, o :: outer⟩).blocks.find? (fun b => !b.chained) =
      some (o.heading.block false o.body inverse) := by
    simp only [builder, List.flatMap_cons, OpenItem.blocks, hblocks, List.append_assoc,
      List.find?_append, hnone]
    rfl
  rw [TreeBuilder.finish, hfind]
  rfl

theorem finish_builder_nil (root : Forest) : (builder ⟨root, []⟩).finish = .ok root.nodes :=
  congrArg Except.ok (List.reverse_reverse root.nodes)

/-- The tree of a template, by way of the forest that its symbols are read as. -/
theorem ofPieces_eq {pieces : List Piece} {w : List Symbol} (h : Symbol.ofPieces pieces = .ok w) :
    Node.ofPieces pieces = (empty.readAll w).bind fun P => P.builder.finish := by
  have hfold := foldlM_step_builder h empty
  have hempty : empty.builder = TreeBuilder.empty := rfl
  rw [hempty] at hfold
  rw [Node.ofPieces, hfold]
  cases empty.readAll w <;> rfl

end OpenForest

open OpenForest in
/-- A template that has a tree has the tree of a derivation of its symbols. -/
theorem Node.exists_forest_of_ofPieces {pieces : List Piece} {nodes : List Node}
    (h : Node.ofPieces pieces = .ok nodes) :
    ∃ w, ∃ forest : Forest, Symbol.ofPieces pieces = .ok w ∧ forest.yield = w ∧
      forest.nodes = nodes := by
  obtain ⟨w, hw⟩ : ∃ w, Symbol.ofPieces pieces = .ok w := by
    rw [Node.ofPieces] at h
    cases hfold : pieces.foldlM TreeBuilder.step .empty with
    | error e => rw [hfold] at h; exact absurd h (by simp)
    | ok b => exact exists_symbols_of_foldlM hfold
  rw [ofPieces_eq hw] at h
  obtain ⟨⟨root, _ | ⟨o, outer⟩⟩, hread, hfinish⟩ := Except.bind_eq_ok.1 h
  · rw [finish_builder_nil] at hfinish
    exact ⟨w, root, hw, yield_eq_iff.2 hread, Except.ok.inj hfinish⟩
  · rw [finish_builder_cons] at hfinish
    exact absurd hfinish (by simp)

open OpenForest in
/-- **The tree of a template is the tree of its derivation.**  If the contents of all tags can be
parsed, then

* the template has a tree if and only if its symbols derive;
* a derivation of its symbols is the only one, the tree is the one it stands for, and that tree is
  tidy;
* any other template is refused with the error that the grammar calls for, and with no other: at the
  first symbol that leaves the viable lists, or at the end for the innermost section that is still
  open. -/
theorem Node.ofTokens_of_symbols {tokens : List Token} {w : List Symbol}
    (h : Symbol.ofPieces (Piece.arrange tokens) = .ok w) :
    ((∃ nodes, Node.ofTokens tokens = .ok nodes) ↔ Derives w) ∧
    (∀ forest : Forest, forest.yield = w →
      Node.ofTokens tokens = .ok forest.nodes ∧ Node.AllTidy forest.nodes ∧
        ∀ other : Forest, other.yield = w → other = forest) ∧
    ∀ e, Node.ofTokens tokens = .error e ↔ Refused w e := by
  have hderivation : ∀ forest : Forest, forest.yield = w →
      Node.ofTokens tokens = .ok forest.nodes := by
    intro forest hyield
    rw [Node.ofTokens, ofPieces_eq h, yield_eq_iff.1 hyield]
    exact finish_builder_nil forest
  refine ⟨⟨?_, ?_⟩, fun forest hyield => ⟨hderivation forest hyield, forest.allTidy_nodes, ?_⟩, ?_⟩
  · rintro ⟨nodes, hnodes⟩
    obtain ⟨w', forest, hw', hyield, -⟩ := Node.exists_forest_of_ofPieces hnodes
    rw [h] at hw'
    exact ⟨forest, hyield.trans (Except.ok.inj hw').symm⟩
  · rintro ⟨forest, hyield⟩
    exact ⟨forest.nodes, hderivation forest hyield⟩
  · intro other hother
    exact eq_of_yield_eq (hother.trans hyield.symm)
  · intro e
    rw [Node.ofTokens, ofPieces_eq h, refused_iff, Except.bind_eq_error]
    refine or_congr_right ⟨?_, ?_⟩
    · rintro ⟨⟨root, _ | ⟨o, outer⟩⟩, hread, hfinish⟩
      · rw [finish_builder_nil] at hfinish
        exact absurd hfinish (by simp)
      · rw [finish_builder_cons] at hfinish
        exact ⟨root, o, outer, hread, (Except.error.inj hfinish).symm⟩
    · rintro ⟨root, o, outer, hread, rfl⟩
      exact ⟨_, hread, finish_builder_cons root o outer⟩

/-- The symbols of a section with a chained section derive, because it has a tree. -/
theorem Node.ofTokens_chained_section :
    ∃ w, Symbol.ofPieces
        (Piece.arrange (scan ⟨['<'], ['>'], rfl, rfl⟩ "<#a>x<else b>y</a>".toList).tokens) = .ok w ∧
      Derives w := by
  have hsymbols : (Symbol.ofPieces (Piece.arrange
      (scan ⟨['<'], ['>'], rfl, rfl⟩ "<#a>x<else b>y</a>".toList).tokens)).isOk = true := by
    decide +kernel
  have htree : (Node.ofTokens
      (scan ⟨['<'], ['>'], rfl, rfl⟩ "<#a>x<else b>y</a>".toList).tokens).isOk = true := by
    decide +kernel
  obtain ⟨w, hw⟩ := Except.isOk_iff.1 hsymbols
  exact ⟨w, hw, (Node.ofTokens_of_symbols hw).1.1 (Except.isOk_iff.1 htree)⟩

end Stencil
