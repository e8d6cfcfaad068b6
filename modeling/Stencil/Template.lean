import Stencil.Log
import Stencil.Node.Tree
import Stencil.Table
import Stencil.Value.Printing

/-!
# Compiled templates

Compiling a source means scanning it, building its tree, and walking the tree once in document
order.  The walk checks the number of parameters of built-in block helpers and collects the names
that rendering may ask for: the helpers that tags and sub-expressions call, and the partials that
partial tags name.

The walk keeps a stack of the nodes that are still to be visited (`Survey.walk`), so that the
nesting of a source is not bounded by it.  `Node.preorder` lists the nodes of a tree in document
order, a section before its body and the body before the other branch, and `Survey.walk_eq` says
that this is the order in which the walk visits them.
-/

set_option autoImplicit false

namespace Stencil

/-- The helpers known when a template is compiled, each with whether it is the built-in one. -/
abbrev KnownHelpers := Table Bool

/-- A compiled template. -/
structure Template where
  /-- The source. -/
  source : Text
  /-- The name used in the log. -/
  name : Text
  /-- The tree. -/
  nodes : List Node
  /-- The options it was compiled with. -/
  options : CompileOptions
  /-- The names of helpers that rendering may call, in the order of code points. -/
  helperNames : List Text
  /-- The names of partials that rendering may insert, as far as they are literal, in the order of
  code points. -/
  partialNames : List Text

/-! ## Walking the tree -/

namespace Expr

mutual

/-- The names that the sub-expressions of an expression call. -/
def callees : Expr → List Text
  | .path _ | .literal _ _ => []
  | .call _ head params named => head.source :: (calleesOfList params ++ calleesOfNamed named)

/-- The names called by the sub-expressions of a list of expressions. -/
def calleesOfList : List Expr → List Text
  | [] => []
  | e :: es => e.callees ++ calleesOfList es

/-- The names called by the sub-expressions of named expressions. -/
def calleesOfNamed : List (Text × Expr) → List Text
  | [] => []
  | (_, e) :: es => e.callees ++ calleesOfNamed es

end

end Expr

namespace Node

mutual

/-- The node and all nodes inside it, in document order. -/
def descendants : Node → List Node
  | .text t => [.text t]
  | .comment t => [.comment t]
  | .output escaped call position => [.output escaped call position]
  | .block inverted call body inverse position =>
    .block inverted call body inverse position :: (preorder body ++ preorderOption inverse)
  | .partialTag call indent position => [.partialTag call indent position]

/-- All nodes of a tree, in document order. -/
def preorder : List Node → List Node
  | [] => []
  | node :: nodes => node.descendants ++ preorder nodes

/-- All nodes of a branch that may be absent, in document order. -/
def preorderOption : Option (List Node) → List Node
  | none => []
  | some nodes => preorder nodes

end

end Node

/-- The names that the sub-expressions of a call's parameters call. -/
def Call.innerCallees (c : Call) : List Text :=
  Expr.calleesOfList c.params ++ Expr.calleesOfNamed c.named

/-- The names of helpers that a tag with this call may dispatch to. -/
def Call.mentions (known : KnownHelpers) (c : Call) : List Text :=
  (if c.hasArguments || (c.head.isSimple && Table.contains known c.head.source) then
    [c.head.source]
  else []) ++ c.innerCallees

/-- The name of a partial, if the tag writes it out. -/
def PartialCall.literalName? (c : PartialCall) : Option Text :=
  match c.name with
  | .literal _ value => some value.value.plainText
  | _ => none

/-- The names of helpers that a node itself may dispatch to, the nodes inside it apart. -/
def Node.helperMentions (known : KnownHelpers) : Node → List Text
  | .text _ | .comment _ => []
  | .output _ call _ => call.mentions known
  | .block _ call _ _ _ => call.mentions known
  | .partialTag call _ _ =>
    call.name.callees ++ Expr.calleesOfList call.context.toList ++ Expr.calleesOfNamed call.named

/-- The name of the partial that a node inserts, if the node writes it out. -/
def Node.partialMention? : Node → Option Text
  | .partialTag call _ _ => call.literalName?
  | _ => none

/-- The number of positional parameters that a built-in block helper asks for. -/
def builtinArity? (name : Text) : Option Nat :=
  if ["if".toList, "unless".toList, "each".toList, "with".toList].contains name then some 1
  else none

/-- Why a node calls a built-in block helper wrongly, if it does. -/
def Node.arityError? (known : KnownHelpers) : Node → Option TemplateError
  | .block _ call _ _ position =>
    match builtinArity? call.head.source with
    | some expected =>
      if call.head.isSimple ∧ Table.get? known call.head.source = some true ∧
          call.params.length ≠ expected then
        some (.malformed (.arity call.head.source expected call.params.length) position)
      else none
    | none => none
  | _ => none

/-! ## The walk -/

/-- The nodes right inside a node, those of the body first. -/
def Node.children : Node → List Node
  | .block _ _ body inverse _ => body ++ inverse.getD []
  | _ => []

namespace Node

theorem preorder_append (nodes others : List Node) :
    preorder (nodes ++ others) = preorder nodes ++ preorder others := by
  induction nodes with
  | nil => rfl
  | cons node nodes ih => rw [List.cons_append, preorder, ih, preorder, List.append_assoc]

/-- A node comes before everything inside it. -/
theorem descendants_eq (node : Node) : node.descendants = node :: preorder node.children := by
  cases node with
  | block inverted call body inverse position =>
    rw [descendants, children, preorder_append]
    cases inverse <;> rfl
  | _ => rfl

theorem length_preorder_children_lt (node : Node) (pending : List Node) :
    (preorder (node.children ++ pending)).length < (preorder (node :: pending)).length := by
  rw [preorder, descendants_eq, preorder_append]
  exact Nat.lt_succ_self _

end Node

/-- What a walk along a tree has collected, with the latest first. -/
structure Survey where
  /-- The names of helpers that rendering may call. -/
  helpers : List Text
  /-- The names of partials that are written out. -/
  partials : List Text

namespace Survey

/-- Collects the names that a node mentions. -/
def note (known : KnownHelpers) (s : Survey) (node : Node) : Survey where
  helpers := (node.helperMentions known).reverse ++ s.helpers
  partials := node.partialMention?.toList ++ s.partials

/-- Visits the nodes that are pending, the first one first.  The nodes inside a section are put in
front of those that are pending already. -/
def walk (known : KnownHelpers) (s : Survey) : List Node → Except TemplateError Survey
  | [] => .ok s
  | node :: pending =>
    match node.arityError? known with
    | some e => .error e
    | none => walk known (s.note known node) (node.children ++ pending)
termination_by pending => (Node.preorder pending).length
decreasing_by exact Node.length_preorder_children_lt node pending

/-- **The walk visits the nodes in document order**, whatever is pending, and stops at the first one
that calls a built-in block helper wrongly. -/
theorem walk_eq (known : KnownHelpers) (s : Survey) (pending : List Node) :
    walk known s pending =
      match (Node.preorder pending).findSome? (Node.arityError? known) with
      | some e => .error e
      | none => .ok ((Node.preorder pending).foldl (note known) s) := by
  fun_induction walk known s pending with
  | case1 s => rfl
  | case2 s node pending e herror =>
    rw [Node.preorder, Node.descendants_eq, List.cons_append, List.findSome?_cons, herror]
  | case3 s node pending hnone ih =>
    rw [ih, Node.preorder_append, Node.preorder, Node.descendants_eq, List.cons_append,
      List.findSome?_cons, hnone, List.foldl_cons]

theorem foldl_note (known : KnownHelpers) (s : Survey) (nodes : List Node) :
    nodes.foldl (note known) s =
      ⟨(nodes.flatMap (Node.helperMentions known)).reverse ++ s.helpers,
        (nodes.filterMap Node.partialMention?).reverse ++ s.partials⟩ := by
  induction nodes generalizing s with
  | nil => rfl
  | cons node nodes ih =>
    rw [List.foldl_cons, ih, note, List.flatMap_cons, List.reverse_append, List.append_assoc]
    cases hmention : node.partialMention? with
    | none => rw [List.filterMap_cons_none hmention]; rfl
    | some name =>
      rw [List.filterMap_cons_some hmention, List.reverse_cons, List.append_assoc]
      rfl

end Survey

/-! ## Compiling -/

/-- The template of a tree, unless a built-in block helper is called wrongly. -/
def Template.ofNodes (known : KnownHelpers) (options : CompileOptions) (name source : Text)
    (nodes : List Node) : Except TemplateError Template :=
  (Survey.walk known ⟨[], []⟩ nodes).map fun survey =>
    { source, name, nodes, options
      helperNames := Text.sortDistinct survey.helpers.reverse
      partialNames := Text.sortDistinct survey.partials.reverse }

/-- The events that the tags of a token list give rise to. -/
def Token.events (tokens : List Token) : List Event :=
  tokens.filterMap fun
    | .tag { kind := .delimiters next, start, .. } =>
      some (.delimitersChanged next.opening next.closing start.position)
    | _ => none

/-- The outcome of compiling a source. -/
structure Compilation where
  /-- What has been recorded. -/
  events : List Event
  /-- The template, or why there is none. -/
  result : Except TemplateError Template

/-- Compiles a source. -/
def Template.compile (known : KnownHelpers) (options : CompileOptions) (name source : Text) :
    Compilation :=
  let scanned := scan options.delimiters source
  let events := Token.events scanned.tokens
  match scanned.finish with
  | .error e => ⟨events, .error e⟩
  | .ok _ =>
    -- the end of the source counts as a token
    let events := events ++ [.scanned source.length (scanned.tokens.length + 1)]
    match Node.ofTokens scanned.tokens with
    | .error e => ⟨events, .error e⟩
    | .ok nodes =>
      let events := events ++ [.parsed nodes.length]
      match Template.ofNodes known options name source nodes with
      | .error e => ⟨events, .error e⟩
      | .ok t =>
        let compiled : Event := .compiled { name, source, options } t.helperNames t.partialNames
        ⟨events ++ [compiled], .ok t⟩

end Stencil
