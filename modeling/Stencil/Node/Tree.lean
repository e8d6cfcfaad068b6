import Stencil.Expr.Parse
import Stencil.Node.Basic
import Stencil.Node.Layout
import Stencil.Token.Scan

/-!
# Building the tree

The pieces of a template are taken one by one into a `TreeBuilder`: the nodes that are complete at
the outermost level, and the sections that are open, innermost first.  A section opened by an
`else` tag with a call is *chained*: it is the only node of the branch that the `else` tag began,
and the closing tag of the section that branch belongs to closes it too.

A piece that cannot follow what has been read is refused at once, and a section that is still open
at the end is refused there.
-/

set_option autoImplicit false

namespace Stencil

/-- A section whose closing tag has not been read yet.  Nodes are kept with the latest first. -/
structure OpenBlock where
  /-- What the section is called with. -/
  call : Call
  /-- Where it was opened. -/
  position : Position
  /-- Whether it is inverted. -/
  inverted : Bool
  /-- Whether an `else` tag opened it. -/
  chained : Bool
  /-- The nodes of the body. -/
  body : List Node
  /-- The nodes behind the `else` tag, if that has been read. -/
  inverse : Option (List Node)

/-- Puts a node behind the nodes that have been read.  Texts that touch become one, and an empty
text leaves no node. -/
def Node.pushTo (node : Node) (nodes : List Node) : List Node :=
  match node, nodes with
  | .text [], nodes => nodes
  | .text t, .text s :: rest => .text (s ++ t) :: rest
  | node, nodes => node :: nodes

namespace OpenBlock

/-- Puts a node into the branch that is being read. -/
def push (b : OpenBlock) (node : Node) : OpenBlock :=
  match b.inverse with
  | some nodes => { b with inverse := some (node.pushTo nodes) }
  | none => { b with body := node.pushTo b.body }

/-- The section, once it is closed. -/
def toNode (b : OpenBlock) : Node :=
  .block b.inverted b.call b.body.reverse (b.inverse.map List.reverse) b.position

end OpenBlock

/-- What has been read of a template. -/
structure TreeBuilder where
  /-- The complete nodes of the outermost level, the latest first. -/
  root : List Node
  /-- The open sections, innermost first. -/
  blocks : List OpenBlock

namespace TreeBuilder

/-- A builder that has read nothing. -/
def empty : TreeBuilder := ⟨[], []⟩

/-- Puts a node into the innermost branch. -/
def push (b : TreeBuilder) (node : Node) : TreeBuilder :=
  match b.blocks with
  | [] => { b with root := node.pushTo b.root }
  | inner :: outer => { b with blocks := inner.push node :: outer }

/-- Opens a section. -/
def opened (b : TreeBuilder) (block : OpenBlock) : TreeBuilder :=
  { b with blocks := block :: b.blocks }

/-- Begins the other branch of the innermost section. -/
def otherwise (b : TreeBuilder) (tag : Tag) : Except TemplateError TreeBuilder :=
  let position := tag.start.position
  match b.blocks with
  | [] => .error (.malformed .elseOutside position)
  | inner :: outer =>
    if inner.inverse.isSome then
      .error (.malformed (.duplicateElse inner.call.head.source) position)
    else
      let b := { b with blocks := { inner with inverse := some [] } :: outer }
      if tag.content.isEmpty then .ok b
      else
        (Call.parse position tag.content).map fun call =>
          b.opened ⟨call, position, false, true, [], none⟩

/-- Closes the innermost section and, if that is chained, the sections around it up to one that is
not.  The answer is the section that the closing tag belongs to, and the sections around it. -/
def closeChain : (inner : OpenBlock) → (outer : List OpenBlock) → OpenBlock × List OpenBlock
  | inner, [] => (inner, [])
  | inner, next :: outer =>
    if inner.chained then closeChain (next.push inner.toNode) outer else (inner, next :: outer)

/-- Closes a section. -/
def close (b : TreeBuilder) (tag : Tag) : Except TemplateError TreeBuilder :=
  match b.blocks with
  | [] => .error (.mismatchedSection none tag.content tag.start.position)
  | inner :: outer =>
    let (block, outer) := closeChain inner outer
    let name := block.call.head.source
    if name ≠ tag.content then
      .error (.mismatchedSection (some name) tag.content tag.start.position)
    else .ok ({ b with blocks := outer }.push block.toNode)

/-- Takes the next piece. -/
def step (b : TreeBuilder) : Piece → Except TemplateError TreeBuilder
  | .text content => .ok (b.push (.text content))
  | .tag tag indent =>
    let position := tag.start.position
    match tag.kind with
    | .comment => .ok (b.push (.comment tag.content))
    | .delimiters _ => .ok b
    | .escaped =>
      (Call.parse position tag.content).map fun call => b.push (.output true call position)
    | .unescaped =>
      (Call.parse position tag.content).map fun call => b.push (.output false call position)
    | .block =>
      (Call.parse position tag.content).map fun call =>
        b.opened ⟨call, position, false, false, [], none⟩
    | .inverted =>
      (Call.parse position tag.content).map fun call =>
        b.opened ⟨call, position, true, false, [], none⟩
    | .otherwise => b.otherwise tag
    | .close => b.close tag
    | .partialRef =>
      (PartialCall.parse position tag.content).map fun call =>
        b.push (.partialTag call (indent.getD []) position)

/-- The tree at the end of the pieces.  A section that is still open is reported by the innermost
one that has a closing tag of its own. -/
def finish (b : TreeBuilder) : Except TemplateError (List Node) :=
  match b.blocks.find? fun block => !block.chained with
  | some block => .error (.unclosedSection block.call.head.source block.position)
  | none => .ok b.root.reverse

end TreeBuilder

/-- The tree of a template whose white space has been settled. -/
def Node.ofPieces (pieces : List Piece) : Except TemplateError (List Node) :=
  match pieces.foldlM TreeBuilder.step .empty with
  | .error e => .error e
  | .ok builder => builder.finish

/-- The tree of a list of tokens. -/
def Node.ofTokens (tokens : List Token) : Except TemplateError (List Node) :=
  Node.ofPieces (Piece.arrange tokens)

/-- The tree of a template's source. -/
def Node.parse (d : Delimiters) (source : Text) : Except TemplateError (List Node) :=
  (scan d source).finish.bind fun _ => Node.ofTokens (scan d source).tokens

end Stencil
