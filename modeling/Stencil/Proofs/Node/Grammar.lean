import Mathlib.Data.List.Basic
import Stencil.Node.Tree

/-!
# The grammar of templates

What the tree of a template should be is a matter of a grammar, and not of the stack that
`TreeBuilder` keeps.  The terminals of the grammar are the pieces of a template with their contents
parsed (`Symbol`), and its rules are

    forest → ε | item forest
    item   → leaf | opening forest tail closing
    tail   → ε | else forest | else-call forest tail

where the closing tag repeats the name of the opening one.  A derivation is a tree of the three
mutual types `Forest`, `Item` and `Tail`; `yield` is the list of symbols it derives and `nodes` the
tree of the template that it stands for.

A list of symbols *derives* if it is the yield of a forest, and it is *viable* if it can be
continued to one that derives.  `Refused w e` says which error a list that does not derive calls
for: one at the first symbol that leaves the viable lists, or one at the end.
-/

set_option autoImplicit false

namespace Stencil

/-! ## Symbols -/

/-- The opening tag of a section. -/
structure Heading where
  /-- Whether the section is inverted. -/
  inverted : Bool
  /-- What the section is called with. -/
  call : Call
  /-- Where the tag stands. -/
  position : Position

/-- The name that closes the section. -/
def Heading.name (h : Heading) : Text := h.call.head.source

/-- A symbol that is a node of its own. -/
inductive Leaf where
  /-- Text, of which something is kept. -/
  | text (content : Text) (ne_nil : content ≠ [])
  /-- A comment. -/
  | comment (content : Text)
  /-- An output tag. -/
  | output (escaped : Bool) (call : Call) (position : Position)
  /-- A partial tag. -/
  | partialTag (call : PartialCall) (indent : Text) (position : Position)

/-- The node that a leaf becomes. -/
def Leaf.toNode : Leaf → Node
  | .text content _ => .text content
  | .comment content => .comment content
  | .output escaped call position => .output escaped call position
  | .partialTag call indent position => .partialTag call indent position

/-- A terminal of the grammar. -/
inductive Symbol where
  /-- A node of its own. -/
  | leaf (leaf : Leaf)
  /-- The opening tag of a section. -/
  | opening (heading : Heading)
  /-- An else tag, with a call if it begins a section of its own. -/
  | otherwise (call : Option Call) (position : Position)
  /-- A closing tag. -/
  | closing (name : Text) (position : Position)

/-- The symbol of a piece, if it has one: texts of which nothing is kept and tags that set the
delimiters have none. -/
def Piece.symbol? : Piece → Except TemplateError (Option Symbol)
  | .text content =>
    .ok (if h : content = [] then none else some (.leaf (.text content h)))
  | .tag t indent =>
    let position := t.start.position
    match t.kind with
    | .comment => .ok (some (.leaf (.comment t.content)))
    | .delimiters _ => .ok none
    | .escaped =>
      (Call.parse position t.content).map fun call => some (.leaf (.output true call position))
    | .unescaped =>
      (Call.parse position t.content).map fun call => some (.leaf (.output false call position))
    | .block =>
      (Call.parse position t.content).map fun call => some (.opening ⟨false, call, position⟩)
    | .inverted =>
      (Call.parse position t.content).map fun call => some (.opening ⟨true, call, position⟩)
    | .otherwise =>
      if t.content.isEmpty then .ok (some (.otherwise none position))
      else
        (Call.parse position t.content).map fun call => some (.otherwise (some call) position)
    | .close => .ok (some (.closing t.content position))
    | .partialRef =>
      (PartialCall.parse position t.content).map fun call =>
        some (.leaf (.partialTag call (indent.getD []) position))

/-- The symbols of a template whose white space has been settled. -/
def Symbol.ofPieces : List Piece → Except TemplateError (List Symbol)
  | [] => .ok []
  | piece :: pieces =>
    piece.symbol?.bind fun symbol? => (ofPieces pieces).map (symbol?.toList ++ ·)

/-! ## Derivations -/

mutual

/-- A sequence of items. -/
inductive Forest where
  /-- No item. -/
  | nil
  /-- An item before others. -/
  | cons (item : Item) (rest : Forest)

/-- An item of a template. -/
inductive Item where
  /-- A node of its own. -/
  | leaf (leaf : Leaf)
  /-- A section with its closing tag. -/
  | block (heading : Heading) (body : Forest) (tail : Tail) (closedAt : Position)

/-- What stands between the body of a section and its closing tag. -/
inductive Tail where
  /-- Nothing. -/
  | nil
  /-- An else tag and the branch behind it. -/
  | otherwise (position : Position) (branch : Forest)
  /-- An else tag with a call, and the section it begins. -/
  | chain (call : Call) (position : Position) (body : Forest) (tail : Tail)

end

mutual

/-- The symbols that a forest derives. -/
def Forest.yield : Forest → List Symbol
  | .nil => []
  | .cons item rest => item.yield ++ rest.yield

/-- The symbols that an item derives. -/
def Item.yield : Item → List Symbol
  | .leaf leaf => [.leaf leaf]
  | .block heading body tail closedAt =>
    .opening heading :: (body.yield ++ tail.yield ++ [.closing heading.name closedAt])

/-- The symbols that a tail derives. -/
def Tail.yield : Tail → List Symbol
  | .nil => []
  | .otherwise position branch => .otherwise none position :: branch.yield
  | .chain call position body tail =>
    .otherwise (some call) position :: (body.yield ++ tail.yield)

end

/-- Whether a tail has an else tag that begins a branch.  Behind it no other else tag can stand. -/
def Tail.hasElse : Tail → Bool
  | .nil => false
  | .otherwise _ _ => true
  | .chain _ _ _ tail => tail.hasElse

/-- What the innermost section of a tail is called with, when `call` is what the section is called
with that the tail belongs to. -/
def Tail.innermostCall (call : Call) : Tail → Call
  | .nil | .otherwise _ _ => call
  | .chain call _ _ tail => tail.innermostCall call

/-- Puts a node in front of others.  Texts that touch become one. -/
def Node.prepend : Node → List Node → List Node
  | .text s, .text t :: rest => .text (s ++ t) :: rest
  | node, nodes => node :: nodes

mutual

/-- The nodes that a forest stands for. -/
def Forest.nodes : Forest → List Node
  | .nil => []
  | .cons item rest => item.node.prepend rest.nodes

/-- The node that an item stands for. -/
def Item.node : Item → Node
  | .leaf leaf => leaf.toNode
  | .block heading body tail _ =>
    .block heading.inverted heading.call body.nodes tail.branch heading.position

/-- The branch that a tail stands for.  A section that an else tag begins is the only node of its
branch. -/
def Tail.branch : Tail → Option (List Node)
  | .nil => none
  | .otherwise _ branch => some branch.nodes
  | .chain call position body tail => some [.block false call body.nodes tail.branch position]

end

/-! ## Lists that derive, and lists that do not -/

/-- A list of symbols derives if it is the yield of a forest. -/
def Derives (w : List Symbol) : Prop :=
  ∃ forest : Forest, forest.yield = w

/-- A list of symbols is viable if it can be continued to one that derives. -/
def Viable (w : List Symbol) : Prop :=
  ∃ rest, Derives (w ++ rest)

/-- The section that `heading` opens is the innermost one that is open behind some symbols: all that
is opened behind it is closed again.  `tail` is what stands behind its body. -/
def InnermostOpen (w : List Symbol) (heading : Heading) (tail : Tail) : Prop :=
  ∃ outer, ∃ body : Forest, w = outer ++ .opening heading :: (body.yield ++ tail.yield)

/-- The error that a symbol calls for which cannot follow the symbols before it. -/
inductive Blocked : (before : List Symbol) → Symbol → TemplateError → Prop
  /-- A closing tag stands outside every section. -/
  | closingOutside {w : List Symbol} {name : Text} {position : Position} (hw : Derives w) :
      Blocked w (.closing name position) (.mismatchedSection none name position)
  /-- A closing tag does not repeat the name of the innermost open section. -/
  | closing {w : List Symbol} {heading : Heading} {tail : Tail} {name : Text} {position : Position}
      (hopen : InnermostOpen w heading tail) (hname : heading.name ≠ name) :
      Blocked w (.closing name position) (.mismatchedSection (some heading.name) name position)
  /-- An else tag stands outside every section. -/
  | otherwiseOutside {w : List Symbol} {call : Option Call} {position : Position}
      (hw : Derives w) :
      Blocked w (.otherwise call position) (.malformed .elseOutside position)
  /-- An else tag stands in a branch that an else tag began. -/
  | otherwise {w : List Symbol} {heading : Heading} {tail : Tail} {call : Option Call}
      {position : Position} (hopen : InnermostOpen w heading tail) (helse : tail.hasElse = true) :
      Blocked w (.otherwise call position)
        (.malformed (.duplicateElse (tail.innermostCall heading.call).head.source) position)

/-- The error that a list of symbols calls for which does not derive. -/
inductive Refused : List Symbol → TemplateError → Prop
  /-- A symbol cannot follow the symbols before it, and it is the first such symbol. -/
  | symbol {before after : List Symbol} {x : Symbol} {e : TemplateError} (hbefore : Viable before)
      (hx : ¬ Viable (before ++ [x])) (he : Blocked before x e) : Refused (before ++ x :: after) e
  /-- A section is still open at the end. -/
  | unclosed {w : List Symbol} {heading : Heading} {tail : Tail} (hw : Viable w)
      (hderives : ¬ Derives w) (hopen : InnermostOpen w heading tail) :
      Refused w (.unclosedSection heading.name heading.position)

/-! ## Tidy trees -/

/-- Whether a node may stand in front of others: a text that is not empty may, unless it is in front
of another text. -/
def Node.FitsBefore : Node → List Node → Prop
  | .text t, rest => t ≠ [] ∧ ∀ s, rest.head? ≠ some (.text s)
  | _, _ => True

mutual

/-- A node is tidy if the lists of nodes in it are. -/
def Node.Tidy : Node → Prop
  | .block _ _ body inverse _ => Node.AllTidy body ∧ Node.BranchTidy inverse
  | _ => True

/-- A list of nodes is tidy if no text in it is empty or follows another, and each node is tidy. -/
def Node.AllTidy : List Node → Prop
  | [] => True
  | node :: rest => node.Tidy ∧ node.FitsBefore rest ∧ Node.AllTidy rest

/-- A branch is tidy if its nodes are. -/
def Node.BranchTidy : Option (List Node) → Prop
  | none => True
  | some nodes => Node.AllTidy nodes

end

end Stencil
