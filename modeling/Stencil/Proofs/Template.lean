import Stencil.Proofs.Node.Whitespace
import Stencil.Template

/-!
# What a compiled template consists of

A source that can be compiled has been scanned and read to a tree, and the template is made of that
tree.  The names of helpers in it are those that the nodes of the tree mention, and the indentation
of a partial tag consists of spaces and tabs.
-/

set_option autoImplicit false

namespace Stencil

theorem Text.mem_sortDistinct {t : Text} {ts : List Text} : t ∈ sortDistinct ts ↔ t ∈ ts := by
  rw [sortDistinct, List.mem_mergeSort, List.mem_eraseDups]

namespace Template

variable {known : KnownHelpers} {options : CompileOptions} {name source : Text} {t : Template}

/-- A template is made of the tree that it is compiled from. -/
theorem eq_of_ofNodes {nodes : List Node} (h : ofNodes known options name source nodes = .ok t) :
    t = { source, name, nodes, options
          helperNames := Text.sortDistinct
            ((Node.preorder nodes).flatMap (Node.helperMentions known))
          partialNames := Text.sortDistinct
            ((Node.preorder nodes).filterMap Node.partialMention?) } := by
  obtain ⟨survey, hwalk, rfl⟩ := Except.map_eq_ok.1 h
  rw [Survey.walk_eq] at hwalk
  split at hwalk
  · exact absurd hwalk (by simp)
  · rw [Survey.foldl_note, List.append_nil, List.append_nil] at hwalk
    obtain rfl := Except.ok.inj hwalk
    rw [List.reverse_reverse, List.reverse_reverse]

/-- The tree of a template is read off the tokens of its source. -/
theorem exists_of_compile (h : (compile known options name source).result = .ok t) :
    Node.ofTokens (scan options.delimiters source).tokens = .ok t.nodes ∧
      ofNodes known options name source t.nodes = .ok t := by
  simp only [compile] at h
  split at h
  · exact absurd h (by simp)
  · split at h
    · exact absurd h (by simp)
    · rename_i nodes hnodes
      split at h
      · exact absurd h (by simp)
      · rename_i t' ht'
        obtain rfl : t' = t := Except.ok.inj h
        obtain rfl : t'.nodes = nodes := congrArg Template.nodes (eq_of_ofNodes ht')
        exact ⟨hnodes, ht'⟩

/-- A template bears the name, the source and the options that it was compiled with. -/
theorem key_of_compile (h : (compile known options name source).result = .ok t) :
    t.name = name ∧ t.source = source ∧ t.options = options := by
  rw [eq_of_ofNodes (exists_of_compile h).2]
  exact ⟨rfl, rfl, rfl⟩

/-- The helpers of a template are those that its nodes mention. -/
theorem mem_helperNames (h : (compile known options name source).result = .ok t) {helper : Text} :
    helper ∈ t.helperNames ↔
      ∃ n ∈ Node.preorder t.nodes, helper ∈ n.helperMentions known := by
  have hnodes := eq_of_ofNodes (exists_of_compile h).2
  rw [hnodes, Text.mem_sortDistinct, List.mem_flatMap]

end Template

/-! ## Indentation -/

/-- The indentation of a tag that stands alone consists of spaces and tabs. -/
theorem Token.isIndentChar_of_lineIndent? {before : List Token} {indent : Text}
    (h : lineIndent? before = some indent) : ∀ c ∈ indent, isIndentChar c = true := by
  have hrun : ∀ raw : Text, ∀ c ∈ Text.takeEndWhile isIndentChar raw, isIndentChar c = true :=
    fun raw c hc => Text.mem_takeEndWhile hc
  unfold lineIndent? at h
  split at h
  · obtain rfl := Option.some.inj h
    exact fun c hc => absurd hc List.not_mem_nil
  · split at h
    · obtain rfl := Option.some.inj h
      exact hrun _
    · exact absurd h (by simp)
    · split at h
      · obtain rfl := Option.some.inj h
        exact hrun _
      · exact absurd h (by simp)
  · exact absurd h (by simp)

theorem Piece.isIndentChar_of_mem_arrangeFrom {before tokens : List Token} {t : Tag}
    {indent : Option Text} (h : Piece.tag t indent ∈ arrangeFrom before tokens) :
    ∀ c ∈ indent.getD [], isIndentChar c = true := by
  induction tokens generalizing before with
  | nil => exact absurd h List.not_mem_nil
  | cons token after ih =>
    rw [arrangeFrom_cons] at h
    rcases List.mem_cons.1 h with htoken | hrest
    · cases token with
      | text raw start => exact absurd htoken (by simp [ofToken])
      | tag t' =>
        rw [ofToken] at htoken
        obtain ⟨rfl, rfl⟩ := Piece.tag.inj htoken
        rw [Token.standaloneIndent?]
        split
        · cases hline : Token.lineIndent? before with
          | none => exact fun c hc => absurd hc List.not_mem_nil
          | some indent => exact Token.isIndentChar_of_lineIndent? hline
        · exact fun c hc => absurd hc List.not_mem_nil
    · exact ih hrest

mutual

/-- A partial tag inside a node is one of those whose indentations are listed. -/
theorem Node.mem_indents_of_mem_descendants {call : PartialCall} {indent : Text}
    {position : Position} : ∀ {n : Node}, Node.partialTag call indent position ∈ n.descendants →
      (position, indent) ∈ n.indents
  | .text t, h | .comment t, h | .output escaped c p, h => by
    rw [Node.descendants] at h
    exact absurd h (by simp)
  | .partialTag c i p, h => by
    rw [Node.descendants] at h
    obtain ⟨rfl, rfl, rfl⟩ := Node.partialTag.inj (List.mem_singleton.1 h)
    rw [Node.indents]
    exact List.mem_singleton_self _
  | .block inverted c body inverse p, h => by
    rw [Node.descendants] at h
    rw [Node.indents]
    rcases List.mem_cons.1 h with hself | h
    · exact absurd hself (by simp)
    · rcases List.mem_append.1 h with h | h
      · exact List.mem_append_left _ (Node.mem_indentsOf_of_mem_preorder h)
      · cases inverse with
        | none => exact absurd h List.not_mem_nil
        | some inverse =>
          rw [Node.preorderOption] at h
          rw [Node.branchIndents]
          exact List.mem_append_right _ (Node.mem_indentsOf_of_mem_preorder h)

theorem Node.mem_indentsOf_of_mem_preorder {call : PartialCall} {indent : Text}
    {position : Position} : ∀ {nodes : List Node},
      Node.partialTag call indent position ∈ Node.preorder nodes →
        (position, indent) ∈ Node.indentsOf nodes
  | [], h => absurd h List.not_mem_nil
  | n :: nodes, h => by
    rw [Node.preorder] at h
    rw [Node.indentsOf]
    rcases List.mem_append.1 h with h | h
    · exact List.mem_append_left _ (Node.mem_indents_of_mem_descendants h)
    · exact List.mem_append_right _ (Node.mem_indentsOf_of_mem_preorder h)

end

/-- **The indentation of a partial tag consists of spaces and tabs.** -/
theorem Template.isIndentChar_of_compile {known : KnownHelpers} {options : CompileOptions}
    {name source : Text} {t : Template} (h : (compile known options name source).result = .ok t)
    {call : PartialCall} {indent : Text} {position : Position}
    (htag : Node.partialTag call indent position ∈ Node.preorder t.nodes) :
    ∀ c ∈ indent, isIndentChar c = true := by
  obtain ⟨w, forest, hw, hyield, hnodes⟩ :=
    Node.exists_forest_of_ofPieces (Template.exists_of_compile h).1
  have hmem := Node.mem_indentsOf_of_mem_preorder htag
  rw [← hnodes, forest.indentsOf_nodes, hyield, Symbol.filterMap_indent? hw] at hmem
  obtain ⟨piece, hpiece, hindent⟩ := List.mem_filterMap.1 hmem
  cases piece with
  | text content => exact absurd hindent (by simp [Piece.indent?])
  | tag tag kept =>
    rw [Piece.indent?] at hindent
    split at hindent
    · obtain ⟨-, rfl⟩ := Prod.mk.inj (Option.some.inj hindent)
      exact Piece.isIndentChar_of_mem_arrangeFrom hpiece
    · exact absurd hindent (by simp)

end Stencil
