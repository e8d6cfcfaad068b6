import Stencil.Rendering.Basic

/-!
# Calling helpers

Here the requests of a helper get their meaning.  A helper is called at a `CallSite`, which can
render the branches of its section.  What the helper writes is collected apart from its value, and
what it raises becomes a failure of the rendering:

* a reason of its own is reported with the name of the helper and the place of the tag;
* so is an error that is none of templates and arises while a request is served, as where a branch
  inserts a partial that cannot be read: the helper has not caught it, so it raises it;
* an error about templates, also one that arises while a request is served, is passed on unchanged.
-/

set_option autoImplicit false

namespace Stencil

/-- The branches of a section, in the roles that the helper sees. -/
structure Branches where
  /-- Whether there is a branch for the case that the helper does not consent. -/
  hasInverse : Bool
  /-- Renders a branch in a frame. -/
  render : Branch → Frame → SessionM Text

/-- The branches that consist of nodes; nothing is rendered for one that is absent. -/
def Branches.ofNodes (nodes : List Node → Frame → SessionM Text)
    (body inverse : Option (List Node)) : Branches where
  hasInverse := inverse.isSome
  render
    | .body => nodes (body.getD [])
    | .inverse => nodes (inverse.getD [])

/-- A place where a helper is called. -/
structure CallSite where
  /-- The name that is called. -/
  name : Text
  /-- The place of the tag; no place at all for a call in parentheses. -/
  position : Position
  /-- The frame of the call. -/
  frame : Frame
  /-- The branches, if the call is a section. -/
  branches : Option Branches

/-- The failure that a helper causes. -/
def Raised.toFailure (name : Text) (position : Position) : Raised → Failure
  | .failure kind reason => .template (.helperFailed name kind reason position)
  | .error e => .template e
  | .exhausted reason => .exhausted reason

/-- What becomes of a failure of something that a helper has asked for. -/
def Failure.passing (name : Text) (position : Position) : Failure → Failure
  | .foreign e => (Raised.failure e.kind e.reason).toFailure name position
  | e => e

/-- Does something on behalf of a helper: what is raised there is raised by the helper. -/
def SessionM.onBehalf {α : Type} (name : Text) (position : Position) (act : SessionM α) :
    SessionM α :=
  tryCatch act fun e => throw (e.passing name position)

namespace CallSite

/-- What the helper is told about its call. -/
def invocation (site : CallSite) (stringParams : Bool) (params : List Value) (named : Table Value) :
    Invocation where
  name := site.name
  context := params.head?.getD site.frame.value
  scope := site.frame.value
  params := params.tail
  named := named
  isBlock := site.branches.isSome
  hasInverse := site.branches.any Branches.hasInverse
  stringParams := stringParams

/-- Renders a branch of the section; without a section there is nothing to render. -/
def renderBranch (site : CallSite) (branch : Branch) (e : Entering) : SessionM Text :=
  match site.branches with
  | none => pure []
  | some branches => branches.render branch (e.frame site.frame)

end CallSite

namespace Script

variable {α : Type}

/-- Serves the requests of a script.  `output` is what the script has written before; the answer
comes with what has been written in the end. -/
def run (r : Rendering) (partials : PartialRenderer) (site : CallSite) :
    Script α → (output : Text) → SessionM (α × Text)
  | .done answer, output => pure (answer, output)
  | .stop why, _ => throw (why.toFailure site.name site.position)
  | .render branch entering next, output => do
    let t ← (site.renderBranch branch entering).onBehalf site.name site.position
    (next t).run r partials site output
  | .partialNamed name context next, output => do
    let t ← (partials name ({ context : Entering }.frame site.frame)).onBehalf site.name
      site.position
    (next t).run r partials site output
  | .resolve path next, output => do
    let p ← SessionM.ofExcept ((Path.parse path).mapError fun fault => .malformed fault .none)
    let v ← r.resolve site.frame p
    (next v).run r partials site output
  | .readVariable name next, output =>
    (next (site.frame.variableNamed name)).run r partials site output
  | .newStream items next, output => do
    let v ← SessionM.newStream items
    (next v).run r partials site output
  | .read serial items count next, output => do
    let vs ← SessionM.read serial items count
    (next vs).run r partials site output
  | .write t next, output => next.run r partials site (output ++ t)
  | .written next, output => (next output).run r partials site output
  | .log level message next, output => do
    SessionM.record [.message level message]
    next.run r partials site output

/-- Serving one script after another: the second goes on with what the first has written. -/
theorem run_bind {β : Type} (r : Rendering) (partials : PartialRenderer) (site : CallSite)
    (s : Script α) (f : α → Script β) (output : Text) :
    (s.bind f).run r partials site output =
      s.run r partials site output >>= fun (a, output) =>
        (f a).run r partials site output := by
  induction s generalizing output with
  | done => simp [bind, run]
  | stop => rfl
  | render _ _ _ ih | partialNamed _ _ _ ih | resolve _ _ ih | readVariable _ _ ih
  | newStream _ _ ih | read _ _ _ _ ih | write _ _ ih | written _ ih | log _ _ _ ih =>
    simp [bind, run, ih]

end Script

/-- Calls a helper; the answer is its value and what it has written. -/
def Rendering.call (r : Rendering) (partials : PartialRenderer) (site : CallSite) (helper : Helper)
    (params : List Value) (named : Table Value) : SessionM (Value × Text) :=
  (helper.handle (site.invocation r.stringParams params named)).run r partials site []

end Stencil
