import Stencil.Proofs.Expr.Derivation
import Stencil.Proofs.Node.Whitespace
import Stencil.Template

/-!
# Positions in a tree are those of tags

What a tree remembers of the source are positions, and each of them is that of a tag.  A node that
has one comes from a symbol of the template (`Forest.exists_symbol_of_mem_preorder`), and a symbol
that has one comes from a tag (`Symbol.exists_tag_of_mem_ofPieces`).  So an error that is found in a
tree points at a tag (`Node.exists_tag_of_mem_preorder`), as do those that are found while the tree
is built (`Node.exists_tag_of_ofTokens_error`): a tag that is refused at once is the one the error
points at, and a section that is left open was opened by one.
-/

set_option autoImplicit false

namespace Stencil

/-- The place in the source that an error points at, if it points at one. -/
def TemplateError.sourcePosition? : TemplateError → Option Position
  | .malformed _ position | .mismatchedSection _ _ position | .unclosedSection _ position =>
    some position
  | _ => none

/-- Where a node stands, if that is kept. -/
def Node.position? : Node → Option Position
  | .output _ _ position | .block _ _ _ _ position | .partialTag _ _ position => some position
  | .text _ | .comment _ => none

/-- Where a symbol stands, if that is kept. -/
def Symbol.position? : Symbol → Option Position
  | .leaf l => l.toNode.position?
  | .opening heading => some heading.position
  | .otherwise _ position | .closing _ position => some position

/-! ## Nodes and symbols -/

/-- A text that is put in front of others takes no node away and adds none that has a position. -/
theorem Node.mem_of_mem_preorder_prepend {n node : Node} {nodes : List Node} {p : Position}
    (hp : n.position? = some p) (h : n ∈ preorder (node.prepend nodes)) :
    n ∈ node.descendants ∨ n ∈ preorder nodes := by
  unfold Node.prepend at h
  split at h
  · rw [preorder, descendants] at h
    rcases List.mem_append.1 h with htext | hrest
    · obtain rfl := List.mem_singleton.1 htext
      exact absurd hp (by simp [position?])
    · rw [preorder]
      exact .inr (List.mem_append_right _ hrest)
  · rw [preorder] at h
    exact List.mem_append.1 h

mutual

/-- **A node of a derivation stands where one of its symbols stands.** -/
theorem Forest.exists_symbol_of_mem_preorder {n : Node} {p : Position} (hp : n.position? = some p) :
    ∀ {forest : Forest}, n ∈ Node.preorder forest.nodes → ∃ x ∈ forest.yield, x.position? = some p
  | .nil, h => absurd h List.not_mem_nil
  | .cons item rest, h => by
    rw [Forest.nodes] at h
    rw [Forest.yield]
    rcases Node.mem_of_mem_preorder_prepend hp h with hitem | hrest
    · obtain ⟨x, hx, hat⟩ := Item.exists_symbol_of_mem_descendants hp hitem
      exact ⟨x, List.mem_append_left _ hx, hat⟩
    · obtain ⟨x, hx, hat⟩ := Forest.exists_symbol_of_mem_preorder hp hrest
      exact ⟨x, List.mem_append_right _ hx, hat⟩

theorem Item.exists_symbol_of_mem_descendants {n : Node} {p : Position}
    (hp : n.position? = some p) :
    ∀ {item : Item}, n ∈ item.node.descendants → ∃ x ∈ item.yield, x.position? = some p
  | .leaf leaf, h => by
    have hself : leaf.toNode.descendants = [leaf.toNode] := by cases leaf <;> rfl
    rw [Item.node, hself] at h
    obtain rfl := List.mem_singleton.1 h
    exact ⟨.leaf leaf, List.mem_singleton_self _, hp⟩
  | .block heading body tail closedAt, h => by
    rw [Item.node, Node.descendants] at h
    rw [Item.yield]
    rcases List.mem_cons.1 h with rfl | h
    · exact ⟨.opening heading, List.mem_cons_self, hp⟩
    rcases List.mem_append.1 h with hbody | htail
    · obtain ⟨x, hx, hat⟩ := Forest.exists_symbol_of_mem_preorder hp hbody
      exact ⟨x, List.mem_cons_of_mem _ (by simp [hx]), hat⟩
    · obtain ⟨x, hx, hat⟩ := Tail.exists_symbol_of_mem_branch hp htail
      exact ⟨x, List.mem_cons_of_mem _ (by simp [hx]), hat⟩

theorem Tail.exists_symbol_of_mem_branch {n : Node} {p : Position} (hp : n.position? = some p) :
    ∀ {tail : Tail}, n ∈ Node.preorderOption tail.branch → ∃ x ∈ tail.yield, x.position? = some p
  | .nil, h => absurd h List.not_mem_nil
  | .otherwise position branch, h => by
    rw [Tail.branch, Node.preorderOption] at h
    rw [Tail.yield]
    obtain ⟨x, hx, hat⟩ := Forest.exists_symbol_of_mem_preorder hp h
    exact ⟨x, List.mem_cons_of_mem _ hx, hat⟩
  | .chain call position body tail, h => by
    rw [Tail.branch, Node.preorderOption, Node.preorder, Node.preorder, List.append_nil,
      Node.descendants] at h
    rw [Tail.yield]
    rcases List.mem_cons.1 h with rfl | h
    · exact ⟨.otherwise (some call) position, List.mem_cons_self, hp⟩
    rcases List.mem_append.1 h with hbody | htail
    · obtain ⟨x, hx, hat⟩ := Forest.exists_symbol_of_mem_preorder hp hbody
      exact ⟨x, List.mem_cons_of_mem _ (List.mem_append_left _ hx), hat⟩
    · obtain ⟨x, hx, hat⟩ := Tail.exists_symbol_of_mem_branch hp htail
      exact ⟨x, List.mem_cons_of_mem _ (List.mem_append_right _ hx), hat⟩

end

/-! ## Symbols and tags -/

/-- A symbol stands where the tag stands that it is made of. -/
theorem Piece.exists_tag_of_symbol? {piece : Piece} {x : Symbol} {p : Position}
    (h : piece.symbol? = .ok (some x)) (hp : x.position? = some p) :
    ∃ tag indent, piece = .tag tag indent ∧ p = tag.start.position := by
  cases piece with
  | text content =>
    rw [Piece.symbol?] at h
    split at h
    · exact absurd (Except.ok.inj h) (by simp)
    · obtain rfl := Option.some.inj (Except.ok.inj h)
      exact absurd hp (by simp [Symbol.position?, Leaf.toNode, Node.position?])
  | tag t indent =>
    refine ⟨t, indent, rfl, ?_⟩
    cases hkind : t.kind <;> simp only [Piece.symbol?, hkind] at h
    case delimiters => exact absurd (Except.ok.inj h) (by simp)
    case comment =>
      obtain rfl := Option.some.inj (Except.ok.inj h)
      exact absurd hp (by simp [Symbol.position?, Leaf.toNode, Node.position?])
    case close =>
      obtain rfl := Option.some.inj (Except.ok.inj h)
      exact (Option.some.inj hp).symm
    case otherwise =>
      split at h
      · obtain rfl := Option.some.inj (Except.ok.inj h)
        exact (Option.some.inj hp).symm
      · obtain ⟨call, -, hx⟩ := Except.map_eq_ok.1 h
        obtain rfl := Option.some.inj hx
        exact (Option.some.inj hp).symm
    case block | inverted | escaped | unescaped | partialRef =>
      obtain ⟨call, -, hx⟩ := Except.map_eq_ok.1 h
      obtain rfl := Option.some.inj hx
      exact (Option.some.inj hp).symm

theorem Symbol.exists_tag_of_mem_ofPieces {pieces : List Piece} {w : List Symbol} {x : Symbol}
    {p : Position} (h : ofPieces pieces = .ok w) (hx : x ∈ w) (hp : x.position? = some p) :
    ∃ tag indent, .tag tag indent ∈ pieces ∧ p = tag.start.position := by
  induction pieces generalizing w with
  | nil =>
    obtain rfl := Except.ok.inj h
    exact absurd hx List.not_mem_nil
  | cons piece pieces ih =>
    obtain ⟨symbol?, hpiece, hrest⟩ := Except.bind_eq_ok.1 h
    obtain ⟨w, hw, rfl⟩ := Except.map_eq_ok.1 hrest
    rcases List.mem_append.1 hx with hfirst | hx
    · obtain rfl := Option.mem_toList.1 hfirst
      obtain ⟨tag, indent, rfl, hat⟩ := Piece.exists_tag_of_symbol? hpiece hp
      exact ⟨tag, indent, List.mem_cons_self, hat⟩
    · obtain ⟨tag, indent, hmem, hat⟩ := ih hw hx
      exact ⟨tag, indent, List.mem_cons_of_mem _ hmem, hat⟩

/-- Settling the white space adds no tag. -/
theorem Piece.mem_of_mem_arrangeFrom {before tokens : List Token} {tag : Tag}
    {indent : Option Text} (h : .tag tag indent ∈ arrangeFrom before tokens) :
    .tag tag ∈ tokens := by
  induction tokens generalizing before with
  | nil => exact absurd h List.not_mem_nil
  | cons token after ih =>
    rw [arrangeFrom_cons] at h
    rcases List.mem_cons.1 h with htoken | hrest
    · cases token with
      | text raw start => exact absurd htoken (by simp [ofToken])
      | tag t =>
        rw [ofToken] at htoken
        obtain ⟨rfl, rfl⟩ := Piece.tag.inj htoken
        exact List.mem_cons_self
    · exact List.mem_cons_of_mem _ (ih hrest)

/-! ## Trees -/

theorem Call.sourcePosition?_of_parse {position : Position} {source : Text} {e : TemplateError}
    (h : Call.parse position source = .error e) : e.sourcePosition? = some position := by
  obtain ⟨fault, rfl⟩ := Call.eq_malformed_of_parse h
  rfl

theorem PartialCall.sourcePosition?_of_parse {position : Position} {source : Text}
    {e : TemplateError} (h : PartialCall.parse position source = .error e) :
    e.sourcePosition? = some position := by
  obtain ⟨fault, rfl⟩ := PartialCall.eq_malformed_of_parse h
  rfl

namespace TreeBuilder

variable {b : TreeBuilder} {tag : Tag} {e : TemplateError}

theorem sourcePosition?_of_otherwise (h : b.otherwise tag = .error e) :
    e.sourcePosition? = some tag.start.position := by
  simp only [otherwise] at h
  split at h
  · obtain rfl := Except.error.inj h
    rfl
  · split at h
    · obtain rfl := Except.error.inj h
      rfl
    · split at h
      · exact absurd h (by simp)
      · exact Call.sourcePosition?_of_parse (Except.map_eq_error.1 h)

theorem sourcePosition?_of_close (h : b.close tag = .error e) :
    e.sourcePosition? = some tag.start.position := by
  simp only [close] at h
  split at h
  · obtain rfl := Except.error.inj h
    rfl
  · split at h
    · obtain rfl := Except.error.inj h
      rfl
    · exact absurd h (by simp)

/-- A piece that is refused is a tag, and the error points at it. -/
theorem exists_tag_of_step {piece : Piece} (h : b.step piece = .error e) :
    ∃ tag indent, piece = .tag tag indent ∧ e.sourcePosition? = some tag.start.position := by
  cases piece with
  | text content => exact absurd h (by simp [step])
  | tag t indent =>
    refine ⟨t, indent, rfl, ?_⟩
    cases hkind : t.kind <;> simp only [step, hkind] at h
    case comment | delimiters => exact absurd h (by simp)
    case otherwise => exact sourcePosition?_of_otherwise h
    case close => exact sourcePosition?_of_close h
    case partialRef => exact PartialCall.sourcePosition?_of_parse (Except.map_eq_error.1 h)
    case block | inverted | escaped | unescaped =>
      exact Call.sourcePosition?_of_parse (Except.map_eq_error.1 h)

theorem exists_tag_of_foldlM {pieces : List Piece} (h : pieces.foldlM step b = .error e) :
    ∃ tag indent, .tag tag indent ∈ pieces ∧ e.sourcePosition? = some tag.start.position := by
  induction pieces generalizing b with
  | nil => exact absurd h (by simp [pure, Except.pure])
  | cons piece pieces ih =>
    rw [List.foldlM_cons] at h
    rcases Except.bind_eq_error.1 h with hstep | ⟨b', -, hrest⟩
    · obtain ⟨tag, indent, rfl, hat⟩ := exists_tag_of_step hstep
      exact ⟨tag, indent, List.mem_cons_self, hat⟩
    · obtain ⟨tag, indent, hmem, hat⟩ := ih hrest
      exact ⟨tag, indent, List.mem_cons_of_mem _ hmem, hat⟩

end TreeBuilder

namespace OpenForest

/-- The opening tag of the innermost open section has been read. -/
theorem opening_mem_yield (root : Forest) (o : OpenItem) (outer : List OpenItem) :
    .opening o.heading ∈ yield ⟨root, o :: outer⟩ := by
  rw [yield, OpenItem.yieldAll, OpenItem.yield]
  simp

end OpenForest

namespace Node

variable {tokens : List Token}

open OpenForest in
/-- **A list of tokens that has no tree is refused for one of its tags.** -/
theorem exists_tag_of_ofTokens_error {e : TemplateError} (h : ofTokens tokens = .error e) :
    ∃ tag, .tag tag ∈ tokens ∧ e.sourcePosition? = some tag.start.position := by
  rw [ofTokens, ofPieces] at h
  split at h
  · next hfold =>
    obtain rfl := Except.error.inj h
    obtain ⟨tag, indent, hmem, hat⟩ := TreeBuilder.exists_tag_of_foldlM hfold
    exact ⟨tag, Piece.mem_of_mem_arrangeFrom hmem, hat⟩
  · next hfold =>
    obtain ⟨w, ⟨root, _ | ⟨o, outer⟩⟩, hw, hyield, rfl⟩ := exists_builder_of_foldlM hfold
    · exact absurd h (by simp [finish_builder_nil])
    · rw [finish_builder_cons] at h
      obtain rfl := Except.error.inj h
      have hopening := hyield ▸ opening_mem_yield root o outer
      obtain ⟨tag, indent, hmem, hat⟩ := Symbol.exists_tag_of_mem_ofPieces hw hopening rfl
      exact ⟨tag, Piece.mem_of_mem_arrangeFrom hmem, congrArg some hat⟩

/-- **A node of a tree stands where a tag stands**, if it has a position. -/
theorem exists_tag_of_mem_preorder {nodes : List Node} {n : Node} {p : Position}
    (h : ofTokens tokens = .ok nodes) (hn : n ∈ preorder nodes) (hp : n.position? = some p) :
    ∃ tag, .tag tag ∈ tokens ∧ p = tag.start.position := by
  obtain ⟨w, forest, hw, rfl, rfl⟩ := Node.exists_forest_of_ofPieces h
  obtain ⟨x, hx, hat⟩ := Forest.exists_symbol_of_mem_preorder hp hn
  obtain ⟨tag, indent, hmem, htag⟩ := Symbol.exists_tag_of_mem_ofPieces hw hx hat
  exact ⟨tag, Piece.mem_of_mem_arrangeFrom hmem, htag⟩

end Node

end Stencil
