import Stencil.Rendering.Call

/-!
# The values of expressions

A path is resolved, a literal stands for its value, and a call in parentheses for the value of its
helper; what the helper writes is dropped.  The parameters of a call are evaluated from left to
right, the positional ones first.  When helpers are given the source of their parameters, nothing is
evaluated at all.
-/

set_option autoImplicit false

namespace Stencil

/-- What a parameter stands for when helpers are given its source: the text of a quoted literal, and
the source of anything else. -/
def Expr.asWritten : Expr → Value
  | .literal _ (.text t) => .text t
  | e => .text e.source

namespace Rendering

mutual

/-- The value of an expression. -/
def evaluate (r : Rendering) (partials : PartialRenderer) (f : Frame) : Expr → SessionM Value
  | .path p => r.resolve f p
  | .literal _ literal => pure literal.value
  | .call _ head params named => do
    let helper ← r.helperFor head .none
    let params ← r.arguments partials f params
    let named ← r.namedArguments partials f named
    let site : CallSite := ⟨head.source, .none, f, none⟩
    let (value, _) ← r.call partials site helper params (Table.ofList named)
    return value

/-- What a helper is given for its positional parameters. -/
def arguments (r : Rendering) (partials : PartialRenderer) (f : Frame) :
    List Expr → SessionM (List Value)
  | [] => pure []
  | e :: es => do
    let v ← if r.stringParams then pure e.asWritten else r.evaluate partials f e
    let vs ← r.arguments partials f es
    return v :: vs

/-- What a helper is given for its named parameters, repeated names included. -/
def namedArguments (r : Rendering) (partials : PartialRenderer) (f : Frame) :
    List (Text × Expr) → SessionM (List (Text × Value))
  | [] => pure []
  | (name, e) :: es => do
    let v ← if r.stringParams then pure e.asWritten else r.evaluate partials f e
    let vs ← r.namedArguments partials f es
    return (name, v) :: vs

end

/-- Makes a call at a place: finds its helper, evaluates its parameters and calls the helper. -/
def callAt (r : Rendering) (partials : PartialRenderer) (f : Frame) (c : Call) (position : Position)
    (branches : Option Branches) : SessionM (Value × Text) := do
  let helper ← r.helperFor c.head position
  let params ← r.arguments partials f c.params
  let named ← r.namedArguments partials f c.named
  r.call partials ⟨c.head.source, position, f, branches⟩ helper params (Table.ofList named)

/-- The values of the bindings of a partial, which are evaluated in any case. -/
def bindings (r : Rendering) (partials : PartialRenderer) (f : Frame) :
    List (Text × Expr) → SessionM (List (Text × Value))
  | [] => pure []
  | (name, e) :: es => do
    let v ← r.evaluate partials f e
    let vs ← r.bindings partials f es
    return (name, v) :: vs

end Rendering

end Stencil
