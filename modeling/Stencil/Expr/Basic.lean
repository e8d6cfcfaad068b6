import Stencil.Path
import Stencil.Value.Basic

/-!
# Expressions

A parameter of a tag is a path, a literal, or a call of a helper in parentheses.  Each keeps its
source, because a template may ask for the source of its parameters in place of their values.
-/

set_option autoImplicit false

namespace Stencil

/-- The value that a literal writes. -/
inductive Literal where
  /-- The keyword `undefined`. -/
  | undefined
  /-- The keyword `null`. -/
  | null
  /-- One of the keywords `true` and `false`. -/
  | bool (b : Bool)
  /-- A number without a point. -/
  | int (i : Int)
  /-- A number with a point. -/
  | float (x : Binary64)
  /-- A text in quotes. -/
  | text (t : Text)
deriving DecidableEq, Repr

/-- The value of a literal. -/
def Literal.value : Literal → Value
  | .undefined => .undefined
  | .null => .null
  | .bool b => .bool b
  | .int i => .int i
  | .float x => .float x
  | .text t => .text t

/-- The value of a keyword. -/
def Literal.ofKeyword? (t : Text) : Option Literal :=
  if t = ['t', 'r', 'u', 'e'] then some (.bool true)
  else if t = ['f', 'a', 'l', 's', 'e'] then some (.bool false)
  else if t = ['n', 'u', 'l', 'l'] then some .null
  else if t = ['u', 'n', 'd', 'e', 'f', 'i', 'n', 'e', 'd'] then some .undefined
  else none

/-- A parameter of a tag. -/
inductive Expr where
  /-- A path. -/
  | path (path : Path)
  /-- A literal. -/
  | literal (source : Text) (value : Literal)
  /-- A call in parentheses. -/
  | call (source : Text) (head : Path) (params : List Expr) (named : List (Text × Expr))

/-- The source of an expression. -/
def Expr.source : Expr → Text
  | .path p => p.source
  | .literal source _ => source
  | .call source _ _ _ => source

/-- What a tag calls or looks up: a path with positional and named parameters. -/
structure Call where
  /-- The name of a helper, or a path if there are no parameters. -/
  head : Path
  /-- The positional parameters. -/
  params : List Expr
  /-- The named parameters in their order, repeated names included. -/
  named : List (Text × Expr)

/-- Whether there are any parameters. -/
def Call.hasArguments (c : Call) : Bool :=
  !c.params.isEmpty || !c.named.isEmpty

/-- What a partial tag inserts. -/
structure PartialCall where
  /-- The name of the partial, or an expression that answers it. -/
  name : Expr
  /-- The context of the partial. -/
  context : Option Expr
  /-- The bindings of the partial in their order, repeated names included. -/
  named : List (Text × Expr)

end Stencil
