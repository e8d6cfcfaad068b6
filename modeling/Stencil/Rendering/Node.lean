import Stencil.Rendering.Argument
import Stencil.Text.Line

/-!
# Rendering nodes

* An output tag with parameters shows what its helper answers.  Without parameters it shows what its
  path leads to; a bare name that leads nowhere may be a helper.
* A section that names a helper, or that has parameters, is up to its helper.  Any other section
  goes by the value of its path: it repeats its body for the items of a sequence, renders it once in
  the scope of any other truthy value, and its other branch otherwise.
* In an inverted section the two branches change their roles.
* A partial tag renders a partial, in a scope of its own if it has parameters, and indents what
  comes out.
-/

set_option autoImplicit false

namespace Stencil

/-- Enters one more level of nesting and does something there. -/
abbrev Entrance := Label → (Renderer → SessionM Text) → SessionM Text

namespace Rendering

/-- The value of an output tag, and what its helper writes. -/
def outputValue (r : Rendering) (partials : PartialRenderer) (f : Frame) (c : Call)
    (position : Position) : SessionM (Value × Text) := do
  if c.hasArguments then
    r.callAt partials f c position none
  else
    match ← SessionM.ofExcept (f.resolve c.head false) with
    | .undefined =>
      match r.helperNamed? c.head with
      | some helper => r.call partials ⟨c.head.source, position, f, none⟩ helper [] []
      | none =>
        let v ← r.resolve f c.head
        return (v, [])
    | v => return (v, [])

/-- Renders an output tag. -/
def outputTag (r : Rendering) (partials : PartialRenderer) (f : Frame) (escaped : Bool) (c : Call)
    (position : Position) : SessionM Text := do
  let (v, written) ← r.outputValue partials f c position
  return written ++ if escaped then Escaper.value r.env.escape v else v.outputText

/-- Renders a section by the value of its path. -/
def plainSection (renderer : Renderer) (f : Frame) (body inverse : List Node) (v : Value) :
    SessionM Text :=
  match v.items? with
  | some [] => renderer.nodes inverse f
  | some items =>
    SessionM.concat (fun e => renderer.nodes body (Entering.frame e f)) (Entering.ofItems items)
  | none =>
    match v with
    | .bool true => renderer.nodes body f
    | v =>
      if v.isTruthy false then renderer.nodes body (f.push v [] [])
      else renderer.nodes inverse f

/-- Renders an inverted section by the value of its path. -/
def plainInverted (renderer : Renderer) (f : Frame) (body inverse : List Node) (v : Value) :
    SessionM Text :=
  if v.isTruthy false then renderer.nodes inverse f else renderer.nodes body f

/-- Renders what a section consists of, at the level of nesting inside it. -/
def insideBlock (r : Rendering) (renderer : Renderer) (f : Frame) (inverted : Bool) (c : Call)
    (body : List Node) (inverse : Option (List Node)) (position : Position) : SessionM Text := do
  if c.hasArguments || (r.helperNamed? c.head).isSome then
    let branches : Branches :=
      if inverted then .ofNodes renderer.nodes inverse (some body)
      else .ofNodes renderer.nodes (some body) inverse
    let (v, written) ← r.callAt renderer.partialNamed f c position (some branches)
    return written ++ v.outputText
  else
    let v ← r.resolve f c.head
    if inverted then plainInverted renderer f body (inverse.getD []) v
    else plainSection renderer f body (inverse.getD []) v

/-- The name that the first parameter of a partial tag stands for. -/
def partialName (r : Rendering) (partials : PartialRenderer) (f : Frame) : Expr → SessionM Text
  | .literal _ literal => pure literal.value.plainText
  | e => do
    let v ← r.evaluate partials f e
    return v.outputText

/-- The frame that a partial tag renders its partial in. -/
def partialFrame (r : Rendering) (partials : PartialRenderer) (f : Frame) (c : PartialCall) :
    SessionM Frame :=
  if c.context.isNone && c.named.isEmpty then pure f
  else do
    let v ←
      match c.context with
      | some e => r.evaluate partials f e
      | none => pure f.value
    let named ← r.bindings partials f c.named
    return f.push v [] (Table.ofList named)

/-- Renders a node.  `enter` leads to the level of nesting inside a section. -/
def node (r : Rendering) (partials : PartialRenderer) (enter : Entrance) (f : Frame) :
    Node → SessionM Text
  | .text t => pure t
  | .comment _ => pure []
  | .output escaped c position => r.outputTag partials f escaped c position
  | .block inverted c body inverse position =>
    enter (if inverted then .inverted c.head.source else .block c.head.source) fun inner =>
      r.insideBlock inner f inverted c body inverse position
  | .partialTag c indent _ => do
    let name ← r.partialName partials f c.name
    let f ← r.partialFrame partials f c
    let output ← partials name f
    return Text.indentLines indent output

end Rendering

end Stencil
