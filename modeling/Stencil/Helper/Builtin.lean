import Stencil.Helper.Script
import Stencil.Value.Printing

/-!
# Built-in helpers

* `if` and `unless` render one branch or the other, in the scope of the call.
* `each` renders its body for every item of a sequence or stream, with `@index`, or for every entry
  of a mapping, with `@key`; `@first` and `@last` mark the ends.  When there is nothing to go
  through it renders the other branch.
* `with` renders its body in the scope of a value.
* `lookup` looks up a segment that is computed.
* `log` writes to the log.
-/

set_option autoImplicit false

namespace Stencil

/-- The built-in helpers. -/
inductive Builtin where
  /-- Renders the body when a condition holds. -/
  | ifTrue
  /-- Renders the body when a condition fails. -/
  | unlessTrue
  /-- Renders the body for every item. -/
  | each
  /-- Renders the body in the scope of a value. -/
  | within
  /-- Looks up a computed segment. -/
  | lookup
  /-- Writes to the log. -/
  | log
deriving DecidableEq, Repr

namespace Builtin

/-- The name that templates call a built-in helper by. -/
def name : Builtin → Text
  | .ifTrue => "if"
  | .unlessTrue => "unless"
  | .each => "each"
  | .within => "with"
  | .lookup => "lookup"
  | .log => "log"

/-- All built-in helpers. -/
def all : List Builtin :=
  [.ifTrue, .unlessTrue, .each, .within, .lookup, .log]

/-- Whether the condition of a call holds.  With `includeZero=true` a zero counts as true. -/
def condition (call : Invocation) : Bool :=
  let includeZero : Bool :=
    match call.namedParam "includeZero" with
    | .bool true => true
    | _ => false
  call.context.isTruthy includeZero

/-- Renders the body once for every scope, puts the outputs together and goes on with them. -/
def renderEach {α : Type} : List Entering → (Text → Script α) → Script α
  | [], next => next []
  | entering :: rest, next =>
    .render .body entering fun output =>
      renderEach rest fun outputs => next (output ++ outputs)

/-- Renders the body for every scope, or the other branch if there is none. -/
def renderAll (scopes : List Entering) : Script Value :=
  if scopes.isEmpty then Script.inverse.bind fun output => .done (.text output)
  else renderEach scopes fun outputs => .done (.text outputs)

/-- The level that a text names; `info` for any other text.  Case does not matter. -/
def levelOf (name : Text) : LogLevel :=
  let name := name.map Char.toLower
  if name = "debug".toList then .debug
  else if name = "warn".toList ∨ name = "warning".toList then .warning
  else if name = "error".toList then .error
  else .info

/-- What a built-in helper does with a call. -/
def handle : Builtin → Invocation.Handler
  | .ifTrue, call =>
    (if condition call then Script.fn else Script.inverse).bind fun output => .done (.text output)
  | .unlessTrue, call =>
    (if condition call then Script.inverse else Script.fn).bind fun output => .done (.text output)
  | .each, call =>
    match call.context with
    | .map entries => renderAll (Entering.ofEntries entries)
    | v => (Script.items? v).bind fun items => renderAll (Entering.ofItems (items.getD []))
  | .within, call =>
    (match call.context with
      | .undefined | .null => Script.inverse
      | v => Script.fn { context := some v }).bind fun output => .done (.text output)
  | .lookup, call =>
    match call.param 0 with
    | .undefined | .null => .done .undefined
    | key => .done (call.context.field key.outputText)
  | .log, call =>
    let level := levelOf (call.namedParam "level" (.text "info")).outputText
    let message := Text.join [' '] ((call.context :: call.params).map Value.outputText)
    .log level message (.done (.text []))

end Builtin

end Stencil
