import Stencil.Engine.Environment

/-!
# Rendering

A rendering goes by an environment and two flags, which come from the template that is rendered and
hold for its partials too.  What it produces depends on how deeply sections and partials are nested,
because there is a limit to that.  The functions that render tags are therefore told how partials
are rendered at the level of nesting where the tag stands, and those that render what is inside a
section are given a whole `Renderer` of that level.
-/

set_option autoImplicit false

namespace Stencil

/-- What a rendering goes by. -/
structure Rendering where
  /-- The configuration, the loader, the escaper and the helpers. -/
  env : Environment
  /-- Whether a path that leads nowhere is an error. -/
  strict : Bool
  /-- Whether helpers are given the source of their parameters. -/
  stringParams : Bool

/-- Renders the partial of a name in a frame. -/
abbrev PartialRenderer := Text → Frame → SessionM Text

/-- How things are rendered at a level of nesting. -/
structure Renderer where
  /-- Renders nodes. -/
  nodes : List Node → Frame → SessionM Text
  /-- Renders partials, one level deeper. -/
  partialNamed : PartialRenderer

namespace Rendering

/-- The value that a path leads to. -/
def resolve (r : Rendering) (f : Frame) (p : Path) : SessionM Value :=
  SessionM.ofExcept (f.resolve p r.strict)

/-- The helper that a path names. -/
def helperNamed? (r : Rendering) (p : Path) : Option Helper :=
  if p.isSimple then Table.get? r.env.helpers p.source else none

/-- The helper that takes the calls of a path: the one that it names, or else the one that takes the
place of missing helpers. -/
def helperFor (r : Rendering) (p : Path) (position : Position) : SessionM Helper :=
  match r.helperNamed? p with
  | some helper => pure helper
  | none =>
    match Table.get? r.env.helpers HelperRegistry.fallbackName with
    | some helper => do
      SessionM.record [.helperNotFound p.source HelperRegistry.fallbackName]
      return helper
    | none => throw (.template (.helperMissing p.source position))

end Rendering

end Stencil
