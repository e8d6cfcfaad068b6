import Stencil.Frame
import Stencil.Log

/-!
# What helpers do

A helper is asked for a value and may, on the way, render the branches of the section it was called
for, render partials, resolve paths, write output of its own, make and read streams, and log.  A
`Script` is the tree of these requests: each node asks one thing and goes on with the answer.  A
script only sees answers, never failures, so an error that arises while a request is served ends the
script that asked.

A helper is a function from its call (`Invocation`) to such a script.  What a request means is
decided where templates are rendered.
-/

set_option autoImplicit false

namespace Stencil

/-- Why a helper stops before it has a value. -/
inductive Raised where
  /-- A reason of the helper's own, of some kind. -/
  | failure (kind reason : Text)
  /-- An error about templates. -/
  | error (e : TemplateError)
  /-- There is no room left to go on. -/
  | exhausted (reason : Text)
deriving DecidableEq, Repr

/-- The branches of a section, as the helper sees them. -/
inductive Branch where
  /-- What is rendered when the helper consents. -/
  | body
  /-- What is rendered when it does not. -/
  | inverse
deriving DecidableEq, Repr

/-- The scope that a branch is rendered in: the scope of the call, unless one of the parts is
given. -/
structure Entering where
  /-- The value of the scope; the value of the call's scope if absent. -/
  context : Option Value := none
  /-- The variables of the scope. -/
  locals : Table Value := []
  /-- The bindings of the scope. -/
  bindings : Table Value := []

/-- The frame that a branch is rendered in. -/
def Entering.frame (e : Entering) (f : Frame) : Frame :=
  if e.context.isNone && e.locals.isEmpty && e.bindings.isEmpty then f
  else f.push (e.context.getD f.value) e.locals e.bindings

namespace Entering

/-- The variables that mark an item as the first or the last of `count`. -/
def endMarks (index count : Nat) : Table Value :=
  [("first", .bool (index == 0)), ("last", .bool (index + 1 == count))]

/-- The scopes in which the items of a sequence are rendered. -/
def ofItems (items : List Value) : List Entering :=
  items.zipIdx.map fun (item, index) =>
    { context := some item
      locals := ("index", .int index) :: endMarks index items.length }

/-- The scopes in which the entries of a mapping are rendered. -/
def ofEntries (entries : List (Value × Value)) : List Entering :=
  entries.zipIdx.map fun ((key, value), index) =>
    { context := some value
      locals := ("key", key) :: endMarks index entries.length }

end Entering

/-- A computation of a helper. -/
inductive Script (α : Type) where
  /-- The answer. -/
  | done (answer : α)
  /-- No answer. -/
  | stop (why : Raised)
  /-- Renders a branch of the section. -/
  | render (branch : Branch) (entering : Entering) (next : Text → Script α)
  /-- Renders a partial, in a scope of its own if a value is given for it. -/
  | partialNamed (name : Text) (context : Option Value) (next : Text → Script α)
  /-- Resolves the path that a text writes. -/
  | resolve (path : Text) (next : Value → Script α)
  /-- Looks up a variable of the scope. -/
  | readVariable (name : Text) (next : Value → Script α)
  /-- Makes a stream. -/
  | newStream (items : List Value) (next : Value → Script α)
  /-- Reads the next items of a stream, at most `count` of them. -/
  | read (serial : Nat) (items : List Value) (count : Nat) (next : List Value → Script α)
  /-- Writes output that goes before the value of the helper. -/
  | write (output : Text) (next : Script α)
  /-- Asks what has been written so far. -/
  | written (next : Text → Script α)
  /-- Logs a message. -/
  | log (level : LogLevel) (message : Text) (next : Script α)

namespace Script

variable {α β : Type}

/-- Goes on with the answer of a script. -/
def bind : Script α → (α → Script β) → Script β
  | .done a, f => f a
  | .stop why, _ => .stop why
  | .render branch entering next, f => .render branch entering fun t => (next t).bind f
  | .partialNamed name context next, f => .partialNamed name context fun t => (next t).bind f
  | .resolve path next, f => .resolve path fun v => (next v).bind f
  | .readVariable name next, f => .readVariable name fun v => (next v).bind f
  | .newStream items next, f => .newStream items fun v => (next v).bind f
  | .read serial items count next, f => .read serial items count fun vs => (next vs).bind f
  | .write output next, f => .write output (next.bind f)
  | .written next, f => .written fun t => (next t).bind f
  | .log level message next, f => .log level message (next.bind f)

instance : Monad Script where
  pure := .done
  bind := bind

theorem bind_done (s : Script α) : s.bind .done = s := by
  induction s with
  | done => rfl
  | stop => rfl
  | render _ _ _ ih | partialNamed _ _ _ ih | resolve _ _ ih | readVariable _ _ ih
  | newStream _ _ ih | read _ _ _ _ ih | written _ ih => simp only [bind, ih]
  | write _ _ ih | log _ _ _ ih => rw [bind, ih]

theorem bind_assoc {γ : Type} (s : Script α) (f : α → Script β) (g : β → Script γ) :
    (s.bind f).bind g = s.bind fun a => (f a).bind g := by
  induction s with
  | done => rfl
  | stop => rfl
  | render _ _ _ ih | partialNamed _ _ _ ih | resolve _ _ ih | readVariable _ _ ih
  | newStream _ _ ih | read _ _ _ _ ih | written _ ih => simp only [bind, ih]
  | write _ _ ih | log _ _ _ ih => simp only [bind, ih]

instance : LawfulMonad Script :=
  LawfulMonad.mk' Script bind_done (fun _ _ => rfl) bind_assoc

/-- Renders the body. -/
def fn (entering : Entering := {}) : Script Text :=
  .render .body entering .done

/-- Renders the other branch. -/
def inverse (entering : Entering := {}) : Script Text :=
  .render .inverse entering .done

/-- Renders a partial. -/
def insert (name : Text) (context : Option Value := none) : Script Text :=
  .partialNamed name context .done

/-- The value that the path a text writes leads to. -/
def lookup (path : Text) : Script Value :=
  .resolve path .done

/-- The variable of the scope that has a name. -/
def variableNamed (name : Text) : Script Value :=
  .readVariable name .done

/-- Writes output that goes before the value of the helper. -/
def output (t : Text) : Script Unit :=
  .write t (.done ())

/-- Stops for a reason of the helper's own. -/
def fail (kind reason : Text) : Script α :=
  .stop (.failure kind reason)

/-- A new stream. -/
def stream (items : List Value) : Script Value :=
  .newStream items .done

/-- The items of a sequence, or what is left of the items of a stream, which is read to its end by
this; `none` for any other value. -/
def items? : Value → Script (Option (List Value))
  | .list items | .tuple items => .done (some items)
  | .stream serial items => .read serial items items.length fun rest => .done (some rest)
  | _ => .done none

/-- Puts together the texts that the elements of a list, numbered from `index` on, give rise to. -/
def gather (act : Value → Nat → Script Text) : List Value → (index : Nat) → Script Text
  | [], _ => .done []
  | v :: vs, index =>
    (act v index).bind fun first =>
      (gather act vs (index + 1)).bind fun rest => .done (first ++ rest)

/-- Puts together the texts that the items of a stream give rise to.  An item is not read before
the text of the one in front of it is complete, so whatever reads the stream meanwhile takes items
away.  `room` is a bound of the number of items. -/
def gatherStream (act : Value → Nat → Script Text) (serial : Nat) (items : List Value) :
    (room index : Nat) → Script Text
  | 0, _ => .done []
  | room + 1, index =>
    .read serial items 1 fun
      | [] => .done []
      | v :: _ =>
        (act v index).bind fun first =>
          (gatherStream act serial items room (index + 1)).bind fun rest =>
            .done (first ++ rest)

/-- Puts together the texts that the elements of a value give rise to, one after another; `none` if
the value cannot be gone through. -/
def gather? (act : Value → Nat → Script Text) : Value → Option (Script Text)
  | .stream serial items => some (gatherStream act serial items items.length 0)
  | v => v.elements?.map fun vs => gather act vs 0

end Script

/-- A call of a helper. -/
structure Invocation where
  /-- The name that the template calls. -/
  name : Text
  /-- The first positional parameter, or the value of the scope if there is none. -/
  context : Value
  /-- The value of the scope. -/
  scope : Value
  /-- The other positional parameters. -/
  params : List Value
  /-- The named parameters. -/
  named : Table Value
  /-- Whether the call is a section. -/
  isBlock : Bool
  /-- Whether the section has another branch. -/
  hasInverse : Bool
  /-- Whether the parameters are the source of what the template writes. -/
  stringParams : Bool

namespace Invocation

/-- The positional parameter at an index, the first one of the call not counted. -/
def param (call : Invocation) (index : Int) (default : Value := .undefined) : Value :=
  if index < 0 then default else call.params[index.toNat]?.getD default

/-- The named parameter of a name. -/
def namedParam (call : Invocation) (name : Text) (default : Value := .undefined) : Value :=
  (Table.get? call.named name).getD default

end Invocation

/-- What a helper does with a call. -/
abbrev Invocation.Handler := Invocation → Script Value

end Stencil
