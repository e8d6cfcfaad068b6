import Stencil.Expr.Basic

/-!
# The tree of a template

A template is a sequence of nodes: text, comments, output tags, sections with their bodies, and
partial tags.  Sections and inverted sections are one constructor, because they differ in nothing
but which of their branches is the body of a helper.
-/

set_option autoImplicit false

namespace Stencil

/-- A node of a template. -/
inductive Node where
  /-- Text that is output as it stands. -/
  | text (content : Text)
  /-- A comment. -/
  | comment (content : Text)
  /-- An output tag. -/
  | output (escaped : Bool) (call : Call) (position : Position)
  /-- A section.  `inverse` is the branch behind the else tag, if there is one. -/
  | block (inverted : Bool) (call : Call) (body : List Node) (inverse : Option (List Node))
    (position : Position)
  /-- A partial tag.  `indent` is put in front of every line of what it inserts. -/
  | partialTag (call : PartialCall) (indent : Text) (position : Position)

namespace Node

/-- Whether a node is text. -/
def isText : Node → Bool
  | .text _ => true
  | _ => false

end Node

end Stencil
