import Stencil.Proofs.Template

/-!
# What compiling finds in a tree

Compiling walks along a tree with a stack of pending nodes, and what it collects depends on which
nodes it meets and on what it takes from each of them.  Both are described here without the walk.

* `Node.IsIn` — a node stands in a tree, at any depth: in the tree itself, in the body of a section,
  or in the branch behind an else tag.  These are the nodes that `Node.preorder` lists
  (`Node.mem_preorder_iff`).
* `Expr.Calls`, `Call.Mentions` and `Node.Mentions` — the names that a node may ask a helper for.
* `Node.Miscalls` — a node calls a built-in block helper with the wrong number of parameters.

`Template.ofNodes_survey` says that the walk refuses a tree for the first such node in document
order, and otherwise collects the names that the nodes in the tree mention, and no others.
-/

set_option autoImplicit false

namespace Stencil

/-! ## The nodes in a tree -/

/-- A node stands in a list of nodes or inside one of them. -/
inductive Node.IsIn (n : Node) : List Node → Prop
  /-- It is one of them. -/
  | here {nodes : List Node} (h : n ∈ nodes) : IsIn n nodes
  /-- It stands in the body of a section. -/
  | body {nodes body : List Node} {inverted : Bool} {call : Call} {inverse : Option (List Node)}
      {position : Position} (h : .block inverted call body inverse position ∈ nodes)
      (hn : n.IsIn body) : IsIn n nodes
  /-- It stands in the branch behind the else tag of a section. -/
  | inverse {nodes body branch : List Node} {inverted : Bool} {call : Call} {position : Position}
      (h : .block inverted call body (some branch) position ∈ nodes) (hn : n.IsIn branch) :
      IsIn n nodes

namespace Node

/-- What stands in some of the nodes stands in all of them. -/
theorem IsIn.mono {n : Node} {nodes more : List Node} (h : n.IsIn nodes) (hsub : nodes ⊆ more) :
    n.IsIn more := by
  cases h with
  | here h => exact .here (hsub h)
  | body h hn => exact .body (hsub h) hn
  | inverse h hn => exact .inverse (hsub h) hn

theorem descendants_subset_preorder {n : Node} {nodes : List Node} (h : n ∈ nodes) :
    n.descendants ⊆ preorder nodes := by
  obtain ⟨before, after, rfl⟩ := List.append_of_mem h
  intro m hm
  rw [preorder_append, preorder]
  exact List.mem_append_right _ (List.mem_append_left _ hm)

mutual

theorem isIn_of_mem_descendants {n : Node} : ∀ {m : Node}, n ∈ m.descendants → n.IsIn [m]
  | .text t, h | .comment t, h | .output escaped call position, h
  | .partialTag call indent position, h => by
    rw [descendants] at h
    exact .here h
  | .block inverted call body inverse position, h => by
    rw [descendants] at h
    rcases List.mem_cons.1 h with rfl | h
    · exact .here (List.mem_singleton_self _)
    rcases List.mem_append.1 h with hbody | hinverse
    · exact .body (List.mem_singleton_self _) (isIn_of_mem_preorder hbody)
    · cases inverse with
      | none => exact absurd hinverse List.not_mem_nil
      | some branch =>
        rw [preorderOption] at hinverse
        exact .inverse (List.mem_singleton_self _) (isIn_of_mem_preorder hinverse)

theorem isIn_of_mem_preorder {n : Node} : ∀ {nodes : List Node}, n ∈ preorder nodes → n.IsIn nodes
  | [], h => absurd h List.not_mem_nil
  | m :: nodes, h => by
    rw [preorder] at h
    rcases List.mem_append.1 h with h | h
    · exact (isIn_of_mem_descendants h).mono (by simp)
    · exact (isIn_of_mem_preorder h).mono (List.subset_cons_self _ _)

end

/-- **Document order lists the nodes of a tree**, and nothing else. -/
theorem mem_preorder_iff {n : Node} {nodes : List Node} : n ∈ preorder nodes ↔ n.IsIn nodes := by
  refine ⟨isIn_of_mem_preorder, fun h => ?_⟩
  induction h with
  | here h =>
    refine descendants_subset_preorder h ?_
    rw [descendants_eq]
    exact List.mem_cons_self
  | body h hn ih =>
    refine descendants_subset_preorder h ?_
    rw [descendants]
    exact List.mem_cons_of_mem _ (List.mem_append_left _ ih)
  | inverse h hn ih =>
    refine descendants_subset_preorder h ?_
    rw [descendants, preorderOption]
    exact List.mem_cons_of_mem _ (List.mem_append_right _ ih)

end Node

/-! ## The names in a node -/

/-- A call in parentheses, which is the expression itself or stands inside it, calls a name. -/
inductive Expr.Calls (name : Text) : Expr → Prop
  /-- The expression is a call of that name. -/
  | head {source : Text} {head : Path} {params : List Expr} {named : List (Text × Expr)}
      (h : head.source = name) : Calls name (.call source head params named)
  /-- The name is called in a positional parameter. -/
  | param {source : Text} {head : Path} {params : List Expr} {named : List (Text × Expr)} {e : Expr}
      (he : e ∈ params) (h : e.Calls name) : Calls name (.call source head params named)
  /-- The name is called in the value of a named parameter. -/
  | named {source : Text} {head : Path} {params : List Expr} {named : List (Text × Expr)}
      {b : Text × Expr} (hb : b ∈ named) (h : b.2.Calls name) :
      Calls name (.call source head params named)

namespace Expr

theorem mem_calleesOfList {name : Text} {es : List Expr} :
    name ∈ calleesOfList es ↔ ∃ e ∈ es, name ∈ e.callees := by
  induction es with
  | nil => simp [calleesOfList]
  | cons e es ih => rw [calleesOfList, List.mem_append, ih, List.exists_mem_cons_iff]

theorem mem_calleesOfNamed {name : Text} {named : List (Text × Expr)} :
    name ∈ calleesOfNamed named ↔ ∃ b ∈ named, name ∈ b.2.callees := by
  induction named with
  | nil => simp [calleesOfNamed]
  | cons b named ih => rw [calleesOfNamed, List.mem_append, ih, List.exists_mem_cons_iff]

mutual

theorem calls_of_mem_callees {name : Text} : ∀ {e : Expr}, name ∈ e.callees → e.Calls name
  | .path p, h | .literal source value, h => absurd h List.not_mem_nil
  | .call source head params named, h => by
    rw [callees] at h
    rcases List.mem_cons.1 h with rfl | h
    · exact .head rfl
    rcases List.mem_append.1 h with h | h
    · obtain ⟨e, he, hcalls⟩ := exists_calls_of_mem_calleesOfList h
      exact .param he hcalls
    · obtain ⟨b, hb, hcalls⟩ := exists_calls_of_mem_calleesOfNamed h
      exact .named hb hcalls

theorem exists_calls_of_mem_calleesOfList {name : Text} :
    ∀ {es : List Expr}, name ∈ calleesOfList es → ∃ e ∈ es, e.Calls name
  | [], h => absurd h List.not_mem_nil
  | e :: es, h => by
    rw [calleesOfList] at h
    rcases List.mem_append.1 h with h | h
    · exact ⟨e, List.mem_cons_self, calls_of_mem_callees h⟩
    · obtain ⟨e', he', hcalls⟩ := exists_calls_of_mem_calleesOfList h
      exact ⟨e', List.mem_cons_of_mem _ he', hcalls⟩

theorem exists_calls_of_mem_calleesOfNamed {name : Text} :
    ∀ {named : List (Text × Expr)}, name ∈ calleesOfNamed named → ∃ b ∈ named, b.2.Calls name
  | [], h => absurd h List.not_mem_nil
  | (key, e) :: named, h => by
    rw [calleesOfNamed] at h
    rcases List.mem_append.1 h with h | h
    · exact ⟨(key, e), List.mem_cons_self, calls_of_mem_callees h⟩
    · obtain ⟨b, hb, hcalls⟩ := exists_calls_of_mem_calleesOfNamed h
      exact ⟨b, List.mem_cons_of_mem _ hb, hcalls⟩

end

/-- **The callees of an expression are the names that it calls**, at any depth. -/
theorem mem_callees_iff {name : Text} {e : Expr} : name ∈ e.callees ↔ e.Calls name := by
  refine ⟨calls_of_mem_callees, fun h => ?_⟩
  induction h with
  | head h =>
    rw [callees, h]
    exact List.mem_cons_self
  | param he h ih =>
    rw [callees]
    exact List.mem_cons_of_mem _ (List.mem_append_left _ (mem_calleesOfList.2 ⟨_, he, ih⟩))
  | named hb h ih =>
    rw [callees]
    exact List.mem_cons_of_mem _ (List.mem_append_right _ (mem_calleesOfNamed.2 ⟨_, hb, ih⟩))

end Expr

/-- A tag with this call may ask for a helper of that name. -/
inductive Call.Mentions (known : KnownHelpers) (c : Call) (name : Text) : Prop
  /-- With parameters, the tag calls whatever its path names. -/
  | withArguments (hhead : c.head.source = name) (h : c.params ≠ [] ∨ c.named ≠ [])
  /-- Without parameters, a bare name is that of a helper if one is known by it. -/
  | withoutArguments (hhead : c.head.source = name) (hparams : c.params = [])
      (hnamed : c.named = []) (hsimple : c.head.isSimple = true)
      (hknown : ∃ isBuiltin, Table.get? known name = some isBuiltin)
  /-- The name is called in a positional parameter. -/
  | param {e : Expr} (he : e ∈ c.params) (h : e.Calls name)
  /-- The name is called in the value of a named parameter. -/
  | named {b : Text × Expr} (hb : b ∈ c.named) (h : b.2.Calls name)

/-- A node may itself ask for a helper of that name, the nodes inside it apart. -/
inductive Node.Mentions (known : KnownHelpers) (name : Text) : Node → Prop
  /-- An output tag. -/
  | output {escaped : Bool} {call : Call} {position : Position} (h : call.Mentions known name) :
      Mentions known name (.output escaped call position)
  /-- A section, inverted or not. -/
  | block {inverted : Bool} {call : Call} {body : List Node} {inverse : Option (List Node)}
      {position : Position} (h : call.Mentions known name) :
      Mentions known name (.block inverted call body inverse position)
  /-- The name of a partial is a call. -/
  | partialName {call : PartialCall} {indent : Text} {position : Position}
      (h : call.name.Calls name) : Mentions known name (.partialTag call indent position)
  /-- The name is called in the context of a partial. -/
  | context {call : PartialCall} {indent : Text} {position : Position} {e : Expr}
      (he : call.context = some e) (h : e.Calls name) :
      Mentions known name (.partialTag call indent position)
  /-- The name is called in a binding of a partial. -/
  | binding {call : PartialCall} {indent : Text} {position : Position} {b : Text × Expr}
      (hb : b ∈ call.named) (h : b.2.Calls name) :
      Mentions known name (.partialTag call indent position)

/-- A node is a partial tag that writes out the name of its partial. -/
inductive Node.Inserts (name : Text) : Node → Prop
  /-- The name is a literal. -/
  | literal {source : Text} {value : Literal} {context : Option Expr} {named : List (Text × Expr)}
      {indent : Text} {position : Position} (h : value.value.plainText = name) :
      Inserts name (.partialTag ⟨.literal source value, context, named⟩ indent position)

theorem Call.hasArguments_iff {c : Call} :
    c.hasArguments = true ↔ c.params ≠ [] ∨ c.named ≠ [] := by
  simp [hasArguments]

theorem Call.mem_mentions_iff {known : KnownHelpers} {c : Call} {name : Text} :
    name ∈ c.mentions known ↔ c.Mentions known name := by
  have hinner : name ∈ c.innerCallees ↔
      (∃ e ∈ c.params, e.Calls name) ∨ ∃ b ∈ c.named, b.2.Calls name := by
    simp only [innerCallees, List.mem_append, Expr.mem_calleesOfList, Expr.mem_calleesOfNamed,
      Expr.mem_callees_iff]
  rw [mentions, List.mem_append, hinner]
  constructor
  · rintro (hhead | ⟨e, he, h⟩ | ⟨b, hb, h⟩)
    · split at hhead
      · next hcalls =>
        obtain rfl := List.mem_singleton.1 hhead
        by_cases hargs : c.params ≠ [] ∨ c.named ≠ []
        · exact .withArguments rfl hargs
        · rw [Bool.or_eq_true, hasArguments_iff, Bool.and_eq_true] at hcalls
          obtain ⟨hsimple, hknown⟩ := hcalls.resolve_left hargs
          obtain ⟨hparams, hnamed⟩ := not_or.1 hargs
          exact .withoutArguments rfl (not_not.1 hparams) (not_not.1 hnamed) hsimple
            (Option.isSome_iff_exists.1 hknown)
      · exact absurd hhead List.not_mem_nil
    · exact .param he h
    · exact .named hb h
  · intro h
    cases h with
    | withArguments hhead h =>
      rw [if_pos (by rw [hasArguments_iff.2 h, Bool.true_or])]
      exact .inl (List.mem_singleton.2 hhead.symm)
    | withoutArguments hhead _ _ hsimple hknown =>
      obtain rfl := hhead
      rw [if_pos (by
        rw [hsimple, Table.contains, Option.isSome_iff_exists.2 hknown, Bool.and_true,
          Bool.or_true])]
      exact .inl (List.mem_singleton_self _)
    | param he h => exact .inr (.inl ⟨_, he, h⟩)
    | named hb h => exact .inr (.inr ⟨_, hb, h⟩)

namespace Node

variable {known : KnownHelpers} {name : Text} {n : Node}

theorem mem_helperMentions_iff : name ∈ n.helperMentions known ↔ n.Mentions known name := by
  cases n with
  | text t | comment t =>
    refine ⟨fun h => absurd h List.not_mem_nil, fun h => ?_⟩
    cases h
  | output escaped call position =>
    rw [helperMentions, Call.mem_mentions_iff]
    refine ⟨.output, fun h => ?_⟩
    cases h with
    | output h => exact h
  | block inverted call body inverse position =>
    rw [helperMentions, Call.mem_mentions_iff]
    refine ⟨.block, fun h => ?_⟩
    cases h with
    | block h => exact h
  | partialTag call indent position =>
    simp only [helperMentions, List.mem_append, Expr.mem_calleesOfList, Expr.mem_calleesOfNamed,
      Expr.mem_callees_iff, Option.mem_toList]
    constructor
    · rintro ((h | ⟨e, he, h⟩) | ⟨b, hb, h⟩)
      · exact .partialName h
      · exact .context he h
      · exact .binding hb h
    · intro h
      cases h with
      | partialName h => exact .inl (.inl h)
      | context he h => exact .inl (.inr ⟨_, he, h⟩)
      | binding hb h => exact .inr ⟨_, hb, h⟩

theorem partialMention?_eq_some_iff : n.partialMention? = some name ↔ n.Inserts name := by
  constructor
  · intro h
    obtain ⟨⟨e, context, named⟩, indent, position, rfl⟩ :
        ∃ call indent position, n = .partialTag call indent position := by
      cases n with
      | partialTag call indent position => exact ⟨_, _, _, rfl⟩
      | _ => exact absurd h (by simp [partialMention?])
    cases e with
    | literal source value => exact .literal (Option.some.inj h)
    | _ => exact absurd h (by simp [partialMention?, PartialCall.literalName?])
  · rintro ⟨h⟩
    exact congrArg some h

end Node

/-! ## Wrong calls -/

/-- The names of the built-in block helpers that take exactly one positional parameter. -/
def oneParameterNames : List Text :=
  ["if".toList, "unless".toList, "with".toList, "each".toList]

/-- A node calls a built-in block helper with the wrong number of positional parameters, and is
refused with that error. -/
inductive Node.Miscalls (known : KnownHelpers) : Node → TemplateError → Prop
  /-- The name is bare, it is that of a built-in, and the built-in has not been replaced. -/
  | block {inverted : Bool} {call : Call} {body : List Node} {inverse : Option (List Node)}
      {position : Position} (hsimple : call.head.isSimple = true)
      (hname : call.head.source ∈ oneParameterNames)
      (hbuiltin : Table.get? known call.head.source = some true)
      (hparams : call.params.length ≠ 1) :
      Miscalls known (.block inverted call body inverse position)
        (.malformed (.arity call.head.source 1 call.params.length) position)

theorem builtinArity?_eq (name : Text) :
    builtinArity? name = if name ∈ oneParameterNames then some 1 else none := by
  have hnames : name ∈ ["if".toList, "unless".toList, "each".toList, "with".toList] ↔
      name ∈ oneParameterNames := by
    simp only [oneParameterNames, List.mem_cons, List.not_mem_nil, or_false]
    tauto
  rw [builtinArity?]
  simp only [List.contains_iff_mem, hnames]

theorem Node.arityError?_eq_some_iff {known : KnownHelpers} {n : Node} {e : TemplateError} :
    n.arityError? known = some e ↔ n.Miscalls known e := by
  constructor
  · intro h
    cases n with
    | block inverted call body inverse position =>
      rw [arityError?, builtinArity?_eq] at h
      by_cases hname : call.head.source ∈ oneParameterNames
      · simp only [if_pos hname] at h
        split at h
        · next hwrong =>
          obtain rfl := Option.some.inj h
          exact .block hwrong.1 hname hwrong.2.1 hwrong.2.2
        · exact absurd h (by simp)
      · simp only [if_neg hname] at h
        exact absurd h (by simp)
    | _ => exact absurd h (by simp [arityError?])
  · rintro ⟨hsimple, hname, hbuiltin, hparams⟩
    rw [arityError?, builtinArity?_eq]
    simp only [if_pos hname]
    rw [if_pos ⟨hsimple, hbuiltin, hparams⟩]

/-! ## The walk -/

namespace Template

variable {known : KnownHelpers} {options : CompileOptions} {name source : Text} {nodes : List Node}

/-- A tree is refused for the first node that the check of the parameters refuses. -/
theorem ofNodes_eq_error_iff_findSome? {e : TemplateError} :
    ofNodes known options name source nodes = .error e ↔
      (Node.preorder nodes).findSome? (Node.arityError? known) = some e := by
  rw [ofNodes, Except.map_eq_error, Survey.walk_eq]
  cases (Node.preorder nodes).findSome? (Node.arityError? known) <;> simp

theorem ofNodes_eq_error_iff {e : TemplateError} :
    ofNodes known options name source nodes = .error e ↔
      ∃ before n after, Node.preorder nodes = before ++ n :: after ∧ n.Miscalls known e ∧
        ∀ m ∈ before, ∀ e', ¬m.Miscalls known e' := by
  have hpasses : ∀ m : Node, m.arityError? known = none ↔ ∀ e', ¬m.Miscalls known e' := by
    intro m
    simp only [Option.eq_none_iff_forall_ne_some, ne_eq, Node.arityError?_eq_some_iff]
  rw [ofNodes_eq_error_iff_findSome?, List.findSome?_eq_some_iff]
  simp only [Node.arityError?_eq_some_iff, hpasses]

theorem exists_ofNodes_eq_error_iff :
    (∃ e, ofNodes known options name source nodes = .error e) ↔
      ∃ n e, Node.IsIn n nodes ∧ n.Miscalls known e := by
  simp only [ofNodes_eq_error_iff_findSome?, ← Option.isSome_iff_exists, List.findSome?_isSome_iff]
  simp only [Option.isSome_iff_exists, Node.arityError?_eq_some_iff, Node.mem_preorder_iff,
    exists_and_left]

theorem mem_helperNames_of_ofNodes {t : Template}
    (h : ofNodes known options name source nodes = .ok t) {helper : Text} :
    helper ∈ t.helperNames ↔ ∃ n, Node.IsIn n nodes ∧ n.Mentions known helper := by
  rw [eq_of_ofNodes h]
  simp only [Text.mem_sortDistinct, List.mem_flatMap, Node.mem_preorder_iff,
    Node.mem_helperMentions_iff]

theorem mem_partialNames_of_ofNodes {t : Template}
    (h : ofNodes known options name source nodes = .ok t) {inserted : Text} :
    inserted ∈ t.partialNames ↔ ∃ n, Node.IsIn n nodes ∧ n.Inserts inserted := by
  rw [eq_of_ofNodes h]
  simp only [Text.mem_sortDistinct, List.mem_filterMap, Node.mem_preorder_iff,
    Node.partialMention?_eq_some_iff]

/-- **What compiling finds in a tree.**

* The tree is refused if and only if a section in it, at any depth, calls a built-in block helper
  with the wrong number of positional parameters.
* The error is that of the first such section in document order.
* Otherwise there is a template of that tree, its names of helpers are those that the nodes in the
  tree mention, and its names of partials are those that partial tags in the tree write out. -/
theorem ofNodes_survey (known : KnownHelpers) (options : CompileOptions) (name source : Text)
    (nodes : List Node) :
    ((∃ e, ofNodes known options name source nodes = .error e) ↔
      ∃ n e, Node.IsIn n nodes ∧ n.Miscalls known e) ∧
    (∀ e, ofNodes known options name source nodes = .error e ↔
      ∃ before n after, Node.preorder nodes = before ++ n :: after ∧ n.Miscalls known e ∧
        ∀ m ∈ before, ∀ e', ¬m.Miscalls known e') ∧
    ∀ t, ofNodes known options name source nodes = .ok t → t.nodes = nodes ∧
      (∀ helper, helper ∈ t.helperNames ↔ ∃ n, Node.IsIn n nodes ∧ n.Mentions known helper) ∧
      ∀ inserted, inserted ∈ t.partialNames ↔ ∃ n, Node.IsIn n nodes ∧ n.Inserts inserted := by
  refine ⟨exists_ofNodes_eq_error_iff, fun e => ofNodes_eq_error_iff, fun t ht => ?_⟩
  refine ⟨?_, fun helper => mem_helperNames_of_ofNodes ht,
    fun inserted => mem_partialNames_of_ofNodes ht⟩
  rw [eq_of_ofNodes ht]

/-- A template with a call in a partial tag, deep inside a section. -/
theorem ofNodes_survey_nested :
    ∃ nodes t, Node.parse ⟨['['], [']'], rfl, rfl⟩ "[#a][#b][>(c d) e][/b][/a]".toList = .ok nodes ∧
      ofNodes [] {} [] [] nodes = .ok t ∧ t.nodes = nodes ∧
        ∀ helper, helper ∈ t.helperNames ↔ ∃ n, Node.IsIn n nodes ∧ n.Mentions [] helper := by
  have hok : ((Node.parse ⟨['['], [']'], rfl, rfl⟩ "[#a][#b][>(c d) e][/b][/a]".toList).bind
      (ofNodes [] {} [] [])).isOk = true := by
    decide +kernel
  obtain ⟨t, hcompiled⟩ := Except.isOk_iff.1 hok
  obtain ⟨nodes, hparse, ht⟩ := Except.bind_eq_ok.1 hcompiled
  obtain ⟨-, -, hsurvey⟩ := ofNodes_survey [] {} [] [] nodes
  obtain ⟨hnodes, hhelpers, -⟩ := hsurvey t ht
  exact ⟨nodes, t, hparse, ht, hnodes, hhelpers⟩

/-- The section in the else-if chain comes before the one behind the chain. -/
example :
    let d : Delimiters := ⟨['<'], ['>'], rfl, rfl⟩
    let known : KnownHelpers := [("each".toList, true), ("with".toList, true)]
    ((Node.parse d "<#a>x<else b><#each></each></a><#with></with>".toList).bind fun nodes =>
      (ofNodes known {} [] [] nodes).map Template.helperNames) =
        .error (.malformed (.arity "each".toList 1 0) ⟨1, 14⟩) := by
  decide +kernel

end Template

end Stencil
