import Stencil.Rendering.Node

/-!
# Levels of nesting

Every section and every partial is one level deeper than the place where it stands.  The recursion
of rendering is recursion on the number of levels that are left: at each level a template is a list
of nodes, and whatever stands inside a section or a partial belongs to the next level.

`Rendering.renderer` keeps the chain of the levels that have been entered, the innermost first.
Entering one level too many fails with that chain, and so does a helper that finds no room left
inside a section or partial, whatever its own words are.

Rendering never finds itself without room here.  That it may, because an interpreter can only have
so many calls in progress, is left to `Rendering.rendererOn`, which guards its levels in the same
way.
-/

set_option autoImplicit false

namespace Stencil

namespace Rendering

/-- The failure of going deeper than the last of a chain of levels. -/
def tooDeep (r : Rendering) (chain : List Label) : Failure :=
  .template (.recursionLimit r.env.config.maxDepth chain.reverse)

/-- Does something inside the last of a chain of levels: running out of room there counts as going
too deep, whether it is a helper that finds none or, on a stack, the rendering itself. -/
def guarded (r : Rendering) (chain : List Label) (act : SessionM Text) : SessionM Text :=
  tryCatch act fun
    | .exhausted _ => throw (r.tooDeep chain)
    | failure => throw failure

/-- The renderer of a level, given how the next level is entered. -/
def rendererWith (r : Rendering) (enter : Entrance) : Renderer :=
  let partialNamed (name : Text) (f : Frame) : SessionM Text := do
    let h ← r.env.partialNamed name
    enter (.partialNamed name) fun inner => inner.nodes h.template.nodes f
  { nodes := fun nodes f => SessionM.concat (r.node partialNamed enter f) nodes
    partialNamed }

/-- The renderer of the level inside a chain of levels, when `room` more may be entered. -/
def renderer (r : Rendering) : (room : Nat) → (chain : List Label) → Renderer
  | 0, chain => r.rendererWith fun label _ => throw (r.tooDeep (label :: chain))
  | room + 1, chain =>
    r.rendererWith fun label act =>
      r.guarded (label :: chain) (act (r.renderer room (label :: chain)))

end Rendering

end Stencil
