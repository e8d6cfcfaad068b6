import Stencil.Helper.Builtin
import Stencil.Template
import Stencil.Text.Blank

/-!
# The registry of helpers

Helpers are called by name.  The registry starts with the built-in ones, and registering a name
again replaces its helper.  A name has at least one character and no blanks, and `else` belongs to
the syntax of templates, so it has to be overridden on purpose.
-/

set_option autoImplicit false

namespace Stencil

/-- A helper. -/
inductive Helper where
  /-- One of the built-in helpers. -/
  | builtin (b : Builtin)
  /-- Any other helper. -/
  | custom (handler : Invocation.Handler)

namespace Helper

/-- What a helper does with a call. -/
def handle : Helper → Invocation.Handler
  | .builtin b => b.handle
  | .custom handler => handler

/-- A helper that answers the text of a value, whatever it is called with. -/
def constant (v : Value) : Helper :=
  .custom fun _ => .done (.text v.plainText)

/-- Whether a helper is the built-in one of that name. -/
def isBuiltinNamed (name : Text) : Helper → Bool
  | .builtin b => b.name == name
  | .custom _ => false

end Helper

/-- Why something cannot be registered or used. -/
inductive UsageError where
  /-- What is given as the name of a helper cannot be one; `shown` is its literal. -/
  | invalidHelperName (shown : Text)
  /-- The name belongs to the syntax of templates. -/
  | reservedHelperName (name : Text)
  /-- A partial has to have a name. -/
  | emptyPartialName
  /-- The template does not belong to an engine. -/
  | unbound (name : Text)
deriving DecidableEq, Repr

/-- The words for a usage error. -/
def UsageError.message : UsageError → Text
  | .invalidHelperName shown => ("Invalid helper name: " : Text) ++ shown
  | .reservedHelperName name =>
    ("Helper name '" : Text) ++ name ++ "' is reserved; pass override=True to replace it"
  | .emptyPartialName => "Partial name must not be empty"
  | .unbound name => ("Template '" : Text) ++ name ++ "' is not bound to an engine"

/-- The helpers that templates can call. -/
abbrev HelperRegistry := Table Helper

namespace HelperRegistry

/-- The registry of the built-in helpers. -/
def builtins : HelperRegistry :=
  Builtin.all.map fun b => (b.name, .builtin b)

/-- The helper that is called in place of a missing one. -/
def fallbackName : Text := "helperMissing"

/-- Whether a name is bound to the built-in helper of that name. -/
def isBuiltin (r : HelperRegistry) (name : Text) : Bool :=
  (Table.get? r name).any (Helper.isBuiltinNamed name)

/-- The names that a compiler should know, each with whether it is bound to a built-in helper. -/
def known (r : HelperRegistry) : KnownHelpers :=
  r.map fun (name, helper) => (name, helper.isBuiltinNamed name)

/-- Whether a text may be the name of a helper. -/
def isName (t : Text) : Bool :=
  !t.isEmpty && !t.any isBlank

/-- The registry with one more helper, and what the log should say about it.  What is given as the
name may be any value. -/
def register (r : HelperRegistry) (name : Value) (helper : Helper) (allowReserved : Bool) :
    Except UsageError (HelperRegistry × List Event) :=
  match name.asText? with
  | none => .error (.invalidHelperName name.literal)
  | some t =>
    if !isName t then .error (.invalidHelperName name.literal)
    else if t = "else".toList ∧ !allowReserved then .error (.reservedHelperName t)
    else
      let events : List Event :=
        if isBuiltin r t then [.builtinOverridden t]
        else if Table.contains r t then [.helperReplaced t]
        else []
      .ok (Table.insert r t helper, events)

end HelperRegistry

end Stencil
