import Stencil.Engine.Request
import Stencil.Rendering.Stack

/-!
# Engines on a stack

An engine that works on a stack answers as one that does not (`Engine.serve`), unless the stack has
no room left on the way.  What is compiled and rendered has the whole stack but for the calls of the
program that asks for it.
-/

set_option autoImplicit false

namespace Stencil

/-- The number of groups that can be open while a source is read that a program has compiled. -/
def Stack.outermostRoom (stack : Stack) : Nat :=
  stack.groupRoom stack.outermost

namespace Environment

variable (env : Environment) (stack : Stack)

/-- The renderer outside every section and partial of a template, with some calls in progress. -/
def topRendererOn (t : Template) (calls : Nat) : Renderer :=
  (env.rendering t).rendererOn stack env.config.maxDepth [] calls fun _ => calls

/-- Renders a template on a stack. -/
def renderOn (t : Template) (data : Value) : SessionM Text :=
  (env.topRendererOn stack t (stack.outermost + stack.sequence)).nodes t.nodes (.ofData data)

/-- Renders a template on a stack, node by node. -/
def renderNodesOn (t : Template) (data : Value) :
    Session → List Text × EStateM.Result Failure Session Unit :=
  SessionM.outputs
    (fun node => (env.topRendererOn stack t stack.outermost).nodes [node] (.ofData data)) t.nodes

end Environment

namespace Engine

variable (stack : Stack) (e : Engine)

/-- Renders a compiled template on a stack. -/
def renderOn (h : Handle) (data : Value) : Except Failure Text × Engine :=
  e.perform (e.env.renderOn stack h.template data)

/-- Answers a request on a stack. -/
def serveOn : Request → Answer × Engine
  | .registerPartialSource name source =>
    Answer.ofResult .template
      (e.registerPartialFrom name (e.env.compileWithin stack.outermostRoom name source))
  | .compile name source none =>
    Answer.ofResult .template
      (e.perform (e.env.compileWithin stack.outermostRoom name source))
  | .compile name source (some options) =>
    Answer.ofResult .template
      (e.perform (e.env.compileKeyWithin stack.outermostRoom { name, source, options }))
  | .template name =>
    Answer.ofResult .template (e.perform (e.env.partialWithin stack.outermostRoom name))
  | .render h data => Answer.ofResult .output (e.renderOn stack h data)
  | .renderSource source data =>
    Answer.ofResult .output <| e.perform do
      let h ← e.env.compileWithin stack.outermostRoom inlineName source
      e.env.renderOn stack h.template data
  | .renderNodes h data =>
    match e.env.renderNodesOn stack h.template data e.session with
    | (texts, .ok _ session) => (.outputs texts none, { e with session })
    | (texts, .error failure session) => (.outputs texts (some failure), { e with session })
  | request => e.serve request

end Engine

end Stencil
