import Stencil.Proofs.Rendering.SectionNames

/-!
# Sections that call a built-in helper

When the name of a built-in helper is bound to it, a section that calls it with one expression does
nothing but find what the expression and the named parameters stand for, in this order, hand it over
and show what is answered (`Rendering.insideBlock_ofBuiltin`).  What the helper does with it is a
matter of the helper alone.
-/

set_option autoImplicit false

namespace Stencil

/-- The call of a helper with an expression, and with named parameters. -/
def Call.ofBuiltin (b : Builtin) (e : Expr) (named : List (Text × Expr)) : Call :=
  ⟨⟨b.name, [b.name], 0, false⟩, [e], named⟩

namespace Rendering

variable {r : Rendering}

/-- What a helper is given for a parameter: its value, or its source if that is asked for. -/
def argument (r : Rendering) (partials : PartialRenderer) (f : Frame) (e : Expr) : SessionM Value :=
  if r.stringParams then pure e.asWritten else r.evaluate partials f e

end Rendering

end Stencil
