import Stencil.Rendering.Nesting

/-!
# Levels

A level of nesting is where a rendering has come to: the levels that have been entered, and how many
may still be.  What belongs to it is how nodes are rendered there (`Rendering.rendererOf`) and how
the next level is entered (`Rendering.entrance`).  The one is made of the other
(`Rendering.rendererOf_eq`), and a section is nothing but an entrance (`Rendering.nodes_block`).
-/

set_option autoImplicit false

namespace Stencil

/-- How many levels of nesting may still be entered, and which have been, the innermost first. -/
structure Level where
  /-- The number of levels that may be entered. -/
  room : Nat
  /-- The levels that have been. -/
  chain : List Label

namespace Rendering

variable (r : Rendering)

/-- The renderer of a level. -/
def rendererOf (l : Level) : Renderer :=
  r.renderer l.room l.chain

/-- How the level inside of a level is entered. -/
def entrance : Level → Entrance
  | ⟨0, chain⟩ => fun label _ => throw (r.tooDeep (label :: chain))
  | ⟨room + 1, chain⟩ => fun label act =>
    r.guarded (label :: chain) (act (r.rendererOf ⟨room, label :: chain⟩))

theorem rendererOf_eq (l : Level) : r.rendererOf l = r.rendererWith (r.entrance l) := by
  obtain ⟨room, chain⟩ := l
  cases room with
  | zero => rfl
  | succ room => rfl

end Rendering

end Stencil
